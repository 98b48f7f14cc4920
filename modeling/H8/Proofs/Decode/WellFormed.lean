import H8.Assembly.Render
import H8.Proofs.Decode.Extension

/-! Every decoded instruction is well formed.

What an operand may hold is bounded by the widths of the fields that it is made
from, by the address space, and in a list of registers by the check of its
slot. A list of one register is excluded only because a push or a pop of that
register is more specific.
-/

set_option autoImplicit false

namespace H8

open Encoding

def IsSigned (bits : Nat) (value : Int) : Prop :=
  -2 ^ (bits - 1) ≤ value ∧ value < 2 ^ (bits - 1)

def Register.OccursIn (mode : Mode) : Register → Prop
  | .general _ _ => True
  | .control name =>
    name ≠ .pc ∧ name ≠ .cs ∧ name ≠ .ds ∧ (name.isH8SOnly = true → mode.isH8S = true)

def Register.IsWhole (register : Register) : Prop :=
  ∃ number : Fin 8, register = .general .whole number

/-- The operand has values that its field and the mode allow. A field of four
bytes holds a displacement of 24 bits. -/
def Operand.WellFormed (mode : Mode) : Operand → Prop
  | .register name => name.OccursIn mode
  | .registerList first count =>
    2 ≤ count ∧ count ≤ 4 ∧ ∃ number last : Fin 8, number.val + count ≤ 8 ∧
      first = .general .whole number ∧
      Assembly.lastRegister first count = .general .whole last ∧
      last.val = number.val + count - 1
  | .immediate value width => value < 2 ^ (8 * width.bytes)
  | .absolute address _ => address ≤ mode.addressMask
  | .indirect base | .postIncrement base | .preDecrement base => base.IsWhole
  | .displaced base displacement field =>
    base.IsWhole ∧ (field = .bits16 ∨ field = .longForm mode) ∧
      IsSigned field.plain.bits displacement
  | .relative target displacement field =>
    target ≤ mode.addressMask ∧ (field = .bits8 ∨ field = .bits16) ∧
      IsSigned field.bits displacement
  | .vector slot => slot < 2 ^ 8
  | .bit number => number < 8

structure Instruction.WellFormed (mode : Mode) (instruction : Instruction) : Prop where
  even : 2 ∣ instruction.length
  least : 2 ≤ instruction.length
  most : instruction.length ≤ maxInstructionLength
  few : instruction.operands.length ≤ 2
  operands : ∀ operand ∈ instruction.operands, operand.WellFormed mode
  registers : ∀ register ∈ instruction.registers, register.OccursIn mode

theorem Operand.WellFormed.occurs {mode : Mode} {operand : Operand}
    (wellFormed : operand.WellFormed mode) :
    ∀ register ∈ operand.registers, register.OccursIn mode := by
  have whole {base : Register} (general : base.IsWhole) : base.OccursIn mode := by
    obtain ⟨number, rfl⟩ := general
    trivial
  intro register member
  cases operand with
  | register name =>
    obtain rfl := List.mem_singleton.mp member
    exact wellFormed
  | registerList first count =>
    obtain rfl := List.mem_singleton.mp member
    obtain ⟨-, -, number, -, -, general, -⟩ := wellFormed
    exact whole ⟨number, general⟩
  | indirect base | postIncrement base | preDecrement base =>
    obtain rfl := List.mem_singleton.mp member
    exact whole wellFormed
  | displaced base displacement field =>
    obtain rfl := List.mem_singleton.mp member
    exact whole wellFormed.1
  | immediate _ _ | absolute _ _ | relative _ _ _ | vector _ | bit _ => cases member

theorem Register.isStackPointer_iff {register : Register} : register.isStackPointer = true ↔
    register = .general .whole 7 ∨ register = .general .low 7 := by
  constructor
  · intro pointer
    cases register with
    | control name => cases pointer
    | general part number =>
      cases part with
      | whole => exact .inl (congrArg _ (of_decide_eq_true pointer))
      | low => exact .inr (congrArg _ (of_decide_eq_true pointer))
      | upper | highByte | lowByte => cases pointer
  · rintro (rfl | rfl)
    all_goals rfl

theorem and_addressMask_le (mode : Mode) (address : Address) :
    address &&& mode.addressMask ≤ mode.addressMask := by
  rw [UInt32.le_iff_toNat_le, UInt32.toNat_and]
  exact Nat.and_le_right

theorem isSigned_bmod {bits : Nat} (positive : 0 < bits) (value : Int) :
    IsSigned bits (value.bmod (2 ^ bits)) := by
  have size : 2 ^ bits = 2 * 2 ^ (bits - 1) := by
    rw [← Nat.pow_succ', Nat.succ_eq_add_one, Nat.sub_add_cancel positive]
  have least := Int.le_bmod (x := value) (m := 2 ^ bits) (Nat.two_pow_pos bits)
  have most := Int.bmod_lt (x := value) (m := 2 ^ bits) (Nat.two_pow_pos bits)
  unfold IsSigned
  rw [size] at least most ⊢
  push_cast at least most
  constructor <;> omega

theorem isSigned_signExtend {bits : Nat} (positive : 0 < bits) (value : Nat) :
    IsSigned bits (signExtend bits value) :=
  isSigned_bmod positive value

namespace Encoding.Slot
variable {slot : Slot} {mode : Mode} {next : Address} {field : Char → Nat} {operand : Operand}

def widest : Slot → List (Char × Nat)
  | .imm letter width => [(letter, 8 * width.bytes)]
  | .bit letter => [(letter, 3)]
  | .vector letter => [(letter, 8)]
  | .listTo register count | .listFrom register count => [(register, 3), (count, 2)]
  | _ => []

def isProper : Slot → Bool
  | .control register => register ≠ .pc && register ≠ .cs && register ≠ .ds
  | .const value => Nat.blt value UInt8.size
  | _ => true

theorem wellFormed_list {number count : Nat} (several : 1 < count) (few : count ≤ 4)
    (fits : number + count ≤ 8) : (Operand.registerList (.long number) count).WellFormed mode := by
  refine ⟨several, few, ⟨number, by omega⟩, ⟨number + count - 1, by omega⟩, fits, ?_, ?_, rfl⟩
  · exact congrArg (Register.general .whole) (Fin.ext (Nat.mod_eq_of_lt (by omega)))
  · refine congrArg (Register.general .whole) (Fin.ext ?_)
    change (number % 8 + count - 1) % 8 = number + count - 1
    omega

theorem wellFormed_of_operand (proper : slot.isProper = true)
    (narrow : ∀ letter ∈ slot.widest, field letter.1 < 2 ^ letter.2)
    (several : ∀ fields ∈ slot.list?, 0 < field fields.2)
    (made : slot.operand mode next field = .ok operand) : operand.WellFormed mode := by
  cases slot with
  | control register =>
    simp only [Slot.operand] at made
    split at made
    · cases made
    · next allowed =>
      cases made
      simp only [isProper, Bool.and_eq_true, decide_eq_true_eq] at proper
      refine ⟨proper.1.1, proper.1.2, proper.2, fun only => ?_⟩
      simpa [only] using allowed
  | imm letter width =>
    cases made
    exact narrow (letter, 8 * width.bytes) (by simp [widest])
  | const value =>
    cases made
    exact Nat.le_of_ble_eq_true proper
  | bit letter =>
    cases made
    exact narrow (letter, 3) (by simp [widest])
  | vector letter =>
    cases made
    exact narrow (letter, 8) (by simp [widest])
  | ind base | postInc base | preDec base | popped | pushed =>
    cases made
    exact ⟨_, rfl⟩
  | disp16 letter base =>
    cases made
    exact ⟨⟨_, rfl⟩, .inl rfl, isSigned_signExtend (by decide) _⟩
  | dispLong letter base =>
    cases made
    refine ⟨⟨_, rfl⟩, .inr rfl, ?_⟩
    rw [FieldWidth.plain_longForm]
    exact isSigned_signExtend (by decide) _
  | abs8 letter | abs16 letter | abs24 letter | absLong letter =>
    cases made
    exact and_addressMask_le mode _
  | rel8 letter =>
    cases made
    exact ⟨and_addressMask_le mode _, .inl rfl, isSigned_signExtend (by decide) _⟩
  | rel16 letter =>
    cases made
    exact ⟨and_addressMask_le mode _, .inr rfl, isSigned_signExtend (by decide) _⟩
  | listTo last count =>
    have register : field last < 8 := narrow (last, 3) (by simp [widest])
    have size : field count < 4 := narrow (count, 2) (by simp [widest])
    have positive : 0 < field count := several (last, count) rfl
    simp only [Slot.operand] at made
    split at made
    · cases made
    · cases made
      exact wellFormed_list (by omega) (by omega) (by omega)
  | listFrom first count =>
    have size : field count < 4 := narrow (count, 2) (by simp [widest])
    have positive : 0 < field count := several (first, count) rfl
    simp only [Slot.operand] at made
    split at made
    · cases made
    · cases made
      exact wellFormed_list (by omega) (by omega) (by omega)
  | reg8 letter | reg16 letter | reg32 letter =>
    cases made
    trivial

end Encoding.Slot

namespace Encoding

def Bit.cleared (letter : Char) : Bit → Bit
  | .field other => if other = letter then .fixed false else .field other
  | bit => bit

def Pattern.cleared (pattern : Pattern) (letter : Char) : Pattern :=
  ⟨pattern.bits.map (Bit.cleared letter)⟩

def Opcode.isProper (opcode : Opcode) : Bool :=
  opcode.pattern.length % 2 == 0 && Nat.ble opcode.slots.length 2 &&
    opcode.slots.all fun slot => slot.isProper &&
      slot.widest.all fun field => Nat.ble (opcode.pattern.positions field.1).length field.2

theorem isProper_opcodes : ∀ opcode ∈ opcodes, opcode.isProper = true := by
  decide +kernel

/-- Where the size of a register list is zero, another opcode is chosen. -/
theorem exists_supersedes : ∀ opcode ∈ opcodes, ∀ slot ∈ opcode.slots, ∀ fields ∈ slot.list?,
    ∃ other ∈ opcodes, other.supersedes opcode (opcode.pattern.cleared fields.2) = true := by
  decide +kernel

namespace Opcode
variable {opcode : Opcode} {bytes : List UInt8} {address : Address} {mode : Mode}

theorem fixedIn_cleared (member : opcode ∈ opcodes) (fits : opcode.Fits bytes mode) {letter : Char}
    (narrow : (opcode.pattern.positions letter).length ≤ 32)
    (zero : opcode.pattern.field bytes letter = 0) :
    (opcode.pattern.cleared letter).FixedIn bytes := by
  intro position value stored
  rw [Pattern.cleared, List.getElem?_map, Option.map_eq_some_iff] at stored
  obtain ⟨bit, bit_at, cleared⟩ := stored
  cases bit with
  | fixed other =>
    cases cleared
    exact fixedIn_of_fits member fits position value bit_at
  | field other =>
    simp only [Bit.cleared] at cleared
    split at cleared
    · next same =>
      subst same
      cases cleared
      exact Pattern.bitAt_of_field_eq_zero narrow zero position
        ((Pattern.mem_positions (bits_length_le member)).mpr bit_at)
    · cases cleared

/-- The best opcode lists no single register: a push or pop would be better. -/
theorem size_pos_of_best (member : opcode ∈ opcodes) (fits : opcode.Fits bytes mode)
    (best : ∀ other ∈ opcodes, (other.result? bytes address mode).isSome = true →
      other = opcode ∨ other.pattern.fixedBits < opcode.pattern.fixedBits)
    {slot : Slot} (present : slot ∈ opcode.slots) :
    ∀ fields ∈ slot.list?, 0 < opcode.pattern.field bytes fields.2 := by
  intro fields lists
  by_contra zero
  have narrow := (listsLast_opcodes opcode member slot present fields lists).2.1
  have cleared := fixedIn_cleared member fits (narrow.trans (by decide)) (by omega)
  obtain ⟨other, found, supersedes⟩ := exists_supersedes opcode member slot present fields lists
  obtain ⟨above, gives⟩ := isSome_of_supersedes found member fits cleared supersedes
  rcases best other found (gives mode) with rfl | fewer <;> omega

end Opcode

end Encoding

section
variable {bytes : List UInt8} {address : Address} {mode : Mode} {instruction : Instruction}

theorem operands_wellFormed_of_decode (decoded : decode bytes address mode = .ok instruction) :
    ∀ operand ∈ instruction.operands, operand.WellFormed mode := by
  have reads := reads_decode bytes address mode
  rw [decoded] at reads
  cases reads with
  | @decoded opcode _ member built best =>
    obtain ⟨fits, made⟩ := Opcode.result?_eq_some_iff.mp built
    obtain ⟨operands, all, rfl⟩ := Opcode.build_eq_ok_iff.mp made
    have proper := isProper_opcodes opcode member
    simp only [Opcode.isProper, Bool.and_eq_true, List.all_eq_true] at proper
    intro operand inside
    have tied := ((List.forall₂_and_left _ _).mpr ⟨fun _ present => present, all⟩).flip
    obtain ⟨slot, present, given⟩ := exists_of_forall₂ tied inside
    obtain ⟨allowed, narrow⟩ := proper.2 slot present
    refine Slot.wellFormed_of_operand allowed (fun field found => ?_)
      (Opcode.size_pos_of_best member fits best present) given
    exact Pattern.field_lt_of_width (Nat.le_of_ble_eq_true (narrow field found)) bytes

/-- Every decoded instruction is well formed, and no longer than the bytes. -/
theorem wellFormed_of_decode (decoded : decode bytes address mode = .ok instruction) :
    instruction.WellFormed mode ∧ instruction.length ≤ bytes.length := by
  refine ⟨?_, length_le_of_decode decoded⟩
  have operands := operands_wellFormed_of_decode decoded
  obtain ⟨opcode, member, -, built⟩ := exists_opcode decoded
  have length := Opcode.length_of_build built
  have count := congrArg List.length (Opcode.kinds_of_build built)
  rw [List.length_map, List.length_map] at count
  have whole := separated_opcodes.whole opcode member
  have proper := isProper_opcodes opcode member
  simp only [Opcode.isProper, Bool.and_eq_true, beq_iff_eq] at proper
  obtain ⟨⟨even, few⟩, -⟩ := proper
  exact {
    even := length ▸ Nat.dvd_of_mod_eq_zero even
    least := by
      have positive := whole.2.1
      omega
    most := length ▸ whole.2.2
    few := count ▸ Nat.le_of_ble_eq_true few
    operands := operands
    registers := by
      intro register found
      obtain ⟨operand, inside, named⟩ := List.mem_flatMap.mp found
      exact (operands operand inside).occurs register named }

end

/-- The longest list of registers, up to the last one there is. -/
theorem wellFormed_of_decode_list : ∃ instruction,
    decode [0x01, 0x30, 0x6D, 0xF4] 0x100 ⟨.h8s, .advanced⟩ = .ok instruction ∧
      instruction.operands =
        [.registerList (.general .whole 4) 4, .preDecrement (.general .whole 7)] ∧
      instruction.WellFormed ⟨.h8s, .advanced⟩ ∧ instruction.length ≤ 4 := by
  have list : decode [0x01, 0x30, 0x6D, 0xF4] 0x100 ⟨.h8s, .advanced⟩ =
      .ok ⟨0x100, 4, .stm, some .long,
        [.registerList (.general .whole 4) 4, .preDecrement (.general .whole 7)], false, true⟩ :=
    (decode_eq_decodeWith ..).trans (by decide +kernel)
  exact ⟨_, list, rfl, wellFormed_of_decode list⟩

end H8
