import H8.Proofs.Decode.Operands

/-! Where an instruction stands matters only to the addresses it names.

What some bytes mean on a core is fixed by their meaning at address zero of the
larger address space. At another place the resolved addresses are different and
nothing else is: absolute addresses lose their highest bits in the smaller
space, and branch targets move with the instruction. In particular no opcode is
chosen or refused because of the place.
-/

set_option autoImplicit false

namespace H8

open Encoding

/-- The operand in another place: its address is resolved in the address space
of the mode, relative to the given following instruction. -/
def Operand.placed (mode : Mode) (next : Address) : Operand → Operand
  | .absolute address field => .absolute (address &&& mode.addressMask) field
  | .relative _ displacement field =>
    .relative (branchTarget mode next displacement) displacement field
  | operand => operand

def Instruction.placed (mode : Mode) (address : Address) (instruction : Instruction) :
    Instruction :=
  { instruction with
    address
    operands := instruction.operands.map
      (Operand.placed mode (address + UInt32.ofNat instruction.length)) }

theorem and_addressMask_and (core : Core) (space : Space) (address : Address) :
    address &&& (⟨core, .advanced⟩ : Mode).addressMask &&& (⟨core, space⟩ : Mode).addressMask =
      address &&& (⟨core, space⟩ : Mode).addressMask := by
  rw [UInt32.and_assoc]
  apply congrArg (address &&& ·)
  cases core <;> cases space <;> decide

/-- An operand in any place is the one of the larger address space, placed. -/
theorem Encoding.Slot.operand_placed (slot : Slot) (core : Core) (space : Space)
    (next other : Address) (field : Char → Nat) :
    slot.operand ⟨core, space⟩ next field =
      (slot.operand ⟨core, .advanced⟩ other field).map (Operand.placed ⟨core, space⟩ next) := by
  cases slot with
  | control register =>
    change (if (register.isH8SOnly && !decide (core = .h8s)) = true then _ else _) =
      Except.map _ (if (register.isH8SOnly && !decide (core = .h8s)) = true then _ else _)
    split <;> rfl
  | abs8 letter | abs16 letter | abs24 letter | absLong letter =>
    exact congrArg (fun address => Except.ok (Operand.absolute address _))
      (and_addressMask_and core space _).symm
  | listTo register count | listFrom register count =>
    simp only [Slot.operand]
    split <;> rfl
  | _ => rfl

theorem Encoding.Opcode.build_placed (opcode : Opcode) (bytes : List UInt8) (core : Core)
    (space : Space) (address : Address) :
    opcode.build bytes address ⟨core, space⟩ =
      (opcode.build bytes 0 ⟨core, .advanced⟩).map (Instruction.placed ⟨core, space⟩ address) := by
  rw [build_eq, build_eq, mapM_eq_map fun slot _ =>
    slot.operand_placed core space (opcode.following address) (opcode.following 0) _]
  cases opcode.slots.mapM (Slot.operand ⟨core, .advanced⟩ (opcode.following 0)
    (opcode.pattern.field bytes)) <;> rfl

namespace Attempt

def map (change : Instruction → Instruction) : Attempt → Attempt
  | .decoded instruction => .decoded (change instruction)
  | attempt => attempt

variable {change : Instruction → Instruction} {attempts : List Attempt}

theorem instruction?_map (attempt : Attempt) :
    (attempt.map change).instruction? = attempt.instruction?.map change := by
  cases attempt <;> rfl

theorem map_eq_iff {attempt verdict : Attempt} (failed : verdict.instruction? = none) :
    attempt.map change = verdict ↔ attempt = verdict := by
  cases attempt with
  | decoded instruction => constructor <;> (rintro rfl; cases failed)
  | rejected | incomplete | illegal => rfl

theorem contains_map {verdict : Attempt} (failed : verdict.instruction? = none) :
    (attempts.map (Attempt.map change)).contains verdict = attempts.contains verdict := by
  rw [Bool.eq_iff_iff, List.contains_iff_mem, List.contains_iff_mem, List.mem_map]
  simp only [map_eq_iff failed, exists_eq_right]

theorem outcome_map :
    outcome (attempts.map (Attempt.map change)) = (outcome attempts).map change := by
  have found : (attempts.map (Attempt.map change)).findSome? instruction? =
      (attempts.findSome? instruction?).map change := by
    induction attempts with
    | nil => rfl
    | cons attempt attempts ih =>
      simp only [List.map_cons, List.findSome?_cons, instruction?_map]
      cases attempt.instruction? with
      | none => exact ih
      | some instruction => rfl
  unfold outcome
  rw [found, contains_map rfl, contains_map rfl]
  cases attempts.findSome? instruction? with
  | some instruction => rfl
  | none =>
    simp only [Option.map_none]
    split
    · rfl
    · split <;> rfl

end Attempt

theorem Encoding.Opcode.attempt_placed (opcode : Opcode) (bytes : List UInt8) (core : Core)
    (space : Space) (address : Address) :
    opcode.attempt bytes address ⟨core, space⟩ =
      (opcode.attempt bytes 0 ⟨core, .advanced⟩).map (Instruction.placed ⟨core, space⟩ address) := by
  have supports : (⟨core, space⟩ : Mode).supports opcode.core =
      (⟨core, .advanced⟩ : Mode).supports opcode.core := by
    cases opcode.core <;> rfl
  unfold attempt
  rw [supports, build_placed]
  split
  · rfl
  · cases opcode.pattern.compare bytes with
    | mismatch | incomplete => rfl
    | full =>
      cases opcode.build bytes 0 ⟨core, .advanced⟩ with
      | ok instruction => rfl
      | error error => cases error <;> rfl

/-- Decoding in any place is decoding at address zero of the larger address space
of the core, placed. -/
theorem decode_placed (bytes : List UInt8) (core : Core) (space : Space) (address : Address) :
    decode bytes address ⟨core, space⟩ =
      (decode bytes 0 ⟨core, .advanced⟩).map (Instruction.placed ⟨core, space⟩ address) := by
  cases bytes with
  | nil => rfl
  | cons first rest =>
    simp only [decode]
    rw [← Attempt.outcome_map, List.map_map]
    refine congrArg Attempt.outcome (List.map_congr_left fun opcode _ => ?_)
    exact opcode.attempt_placed (first :: rest) core space address

/-- What two operands that were read from the same bytes have in common. Each
comes with the address space and the following address that it was resolved in. -/
def Operand.SameUpToPlace (space other : Space) (next otherNext : Nat) : Operand → Operand → Prop
  | .absolute address field, .absolute address' field' =>
    field = field' ∧ (space = other → address = address') ∧
      (space = .normal → address.toNat = address'.toNat % 2 ^ 16) ∧
      (other = .normal → address'.toNat = address.toNat % 2 ^ 16)
  | .relative target displacement field, .relative target' displacement' field' =>
    field = field' ∧ displacement = displacement' ∧
      (target.toNat : Int) = (next + displacement) % (2 ^ space.bits : Nat) ∧
      (target'.toNat : Int) = (otherNext + displacement) % (2 ^ other.bits : Nat)
  | operand, operand' => operand = operand'

structure Instruction.SameUpToPlace (space other : Space) (first second : Instruction) : Prop where
  length : first.length = second.length
  mnemonic : first.mnemonic = second.mnemonic
  width : first.width = second.width
  longForm : first.longForm = second.longForm
  h8sOnly : first.h8sOnly = second.h8sOnly
  operands : List.Forall₂ (Operand.SameUpToPlace space other (first.address.toNat + first.length)
    (second.address.toNat + second.length)) first.operands second.operands

theorem toNat_branchTarget_next (mode : Mode) (address : Address) (length : Nat) (displacement : Int) :
    ((branchTarget mode (address + UInt32.ofNat length) displacement).toNat : Int) =
      ((address.toNat + length : Nat) + displacement) % (2 ^ mode.space.bits : Nat) := by
  have divides : 2 ^ mode.space.bits ∣ 2 ^ 32 :=
    Nat.pow_dvd_pow 2 (by cases mode.space <;> decide)
  have next : (address + UInt32.ofNat length).toNat = (address.toNat + length) % 2 ^ 32 := by
    rw [UInt32.toNat_add, UInt32.toNat_ofNat', Nat.add_mod_mod]
  rw [toNat_branchTarget, next, ← Int.emod_add_emod, ← Int.natCast_emod, Nat.mod_mod_of_dvd _ divides,
    Int.natCast_emod, Int.emod_add_emod]

theorem Operand.sameUpToPlace_placed (core : Core) (space other : Space) (address address' : Address)
    (length : Nat) (operand : Operand) :
    SameUpToPlace space other (address.toNat + length) (address'.toNat + length)
      (operand.placed ⟨core, space⟩ (address + UInt32.ofNat length))
      (operand.placed ⟨core, other⟩ (address' + UInt32.ofNat length)) := by
  cases operand with
  | absolute resolved field =>
    have narrow (space : Space) : 2 ^ 16 ∣ 2 ^ space.bits :=
      Nat.pow_dvd_pow 2 (by cases space <;> decide)
    refine ⟨rfl, fun same => same ▸ rfl, fun normal => ?_, fun normal => ?_⟩
    · rw [toNat_and_addressMask, toNat_and_addressMask, Nat.mod_mod_of_dvd _ (narrow other), normal]
      rfl
    · rw [toNat_and_addressMask, toNat_and_addressMask, Nat.mod_mod_of_dvd _ (narrow space), normal]
      rfl
  | relative target displacement field =>
    exact ⟨rfl, rfl, toNat_branchTarget_next _ address length displacement,
      toNat_branchTarget_next _ address' length displacement⟩
  | _ => rfl

theorem Instruction.sameUpToPlace_placed (core : Core) (space other : Space)
    (address address' : Address) (instruction : Instruction) :
    SameUpToPlace space other (instruction.placed ⟨core, space⟩ address)
      (instruction.placed ⟨core, other⟩ address') where
  length := rfl
  mnemonic := rfl
  width := rfl
  longForm := rfl
  h8sOnly := rfl
  operands := by
    simp only [placed, List.forall₂_map_left_iff, List.forall₂_map_right_iff, List.forall₂_same]
    exact fun operand _ =>
      operand.sameUpToPlace_placed core space other address address' instruction.length

/-- The same bytes fail with the same error wherever they stand and in either
address space of a core, or they give instructions that differ in the resolved
addresses only: an absolute address of the smaller space is that of the larger
one modulo 2^16, and a branch target is at the same distance from the following
instruction, reduced to the address space. -/
theorem decode_same_up_to_place (bytes : List UInt8) (core : Core) (space other : Space)
    (address address' : Address) :
    (∃ error, decode bytes address ⟨core, space⟩ = .error error ∧
      decode bytes address' ⟨core, other⟩ = .error error) ∨
    ∃ first second, decode bytes address ⟨core, space⟩ = .ok first ∧
      decode bytes address' ⟨core, other⟩ = .ok second ∧
      first.address = address ∧ second.address = address' ∧
      first.SameUpToPlace space other second := by
  rw [decode_placed bytes core space address, decode_placed bytes core other address']
  cases decode bytes 0 ⟨core, .advanced⟩ with
  | error error => exact .inl ⟨error, rfl, rfl⟩
  | ok instruction =>
    exact .inr ⟨_, _, rfl, rfl, rfl, rfl,
      instruction.sameUpToPlace_placed core space other address address'⟩

end H8
