import H8.Proofs.Decode.WellFormed
import H8.Stack
import Mathlib.Algebra.BigOperators.Group.List.Basic
import Mathlib.Data.Int.ModEq

/-! How far an instruction moves the stack pointer.

It moves by what passes through the stack, or by a constant that is added to it or
subtracted from it. All of this is found for every instruction that can be
decoded, except that multiply-accumulate can read its factors from the stack and
then moves the stack pointer unnoticed.
-/

set_option autoImplicit false

namespace H8

open Encoding

/-- The way that the stack pointer goes: down with `@-sp`, up with `@sp+`. -/
def Operand.stackStep : Operand → Int
  | .preDecrement base => if base.isStackPointer then -1 else 0
  | .postIncrement base => if base.isStackPointer then 1 else 0
  | _ => 0

def Operand.listed : Operand → Nat
  | .registerList _ count => count
  | _ => 0

namespace Instruction

def transferBytes (instruction : Instruction) : Nat :=
  match instruction.mnemonic with
  | .stm | .ldm => 4 * (instruction.operands.map Operand.listed).sum
  | .mac => 2
  | _ => instruction.effectiveWidth.bytes

def stackTransfer (instruction : Instruction) : Int :=
  match instruction.mnemonic with
  | .push => -(instruction.transferBytes : Int)
  | .pop => instruction.transferBytes
  | _ => (instruction.operands.map fun operand =>
      operand.stackStep * (instruction.transferBytes : Int)).sum

def PassesStack (instruction : Instruction) : Prop :=
  instruction.mnemonic = .push ∨ instruction.mnemonic = .pop ∨
    ∃ operand ∈ instruction.operands, operand.stackStep ≠ 0

/-- The instruction adds an amount to the stack pointer, as a whole or to its low word. -/
inductive AdjustsStack (instruction : Instruction) : Int → Prop where
  | up {value : Nat} {width : Width} {register : Register}
      (mnemonic : instruction.mnemonic ∈ [.add, .adds, .inc])
      (operands : instruction.operands = [.immediate value width, .register register])
      (pointer : register = .general .whole 7 ∨ register = .general .low 7) :
      AdjustsStack instruction value
  | down {value : Nat} {width : Width} {register : Register}
      (mnemonic : instruction.mnemonic ∈ [.sub, .subs, .dec])
      (operands : instruction.operands = [.immediate value width, .register register])
      (pointer : register = .general .whole 7 ∨ register = .general .low 7) :
      AdjustsStack instruction (-value)

/-- The distance is right: what passes through the stack, a constant in the signed
range of the operation, and none otherwise. -/
structure AccountsForStack (instruction : Instruction) : Prop where
  passes : instruction.PassesStack → instruction.stackDelta? = some instruction.stackTransfer
  adjusts : ∀ amount, instruction.AdjustsStack amount → ∃ delta,
    instruction.stackDelta? = some delta ∧
      IsSigned (8 * instruction.effectiveWidth.bytes) delta ∧
      delta ≡ amount [ZMOD 2 ^ (8 * instruction.effectiveWidth.bytes)]
  still : ¬ instruction.PassesStack → (∀ amount, ¬ instruction.AdjustsStack amount) →
    instruction.stackDelta? = none

end Instruction

theorem Width.wrap_spec (width : Width) (value : Int) :
    IsSigned (8 * width.bytes) (width.wrap value) ∧
      width.wrap value ≡ value [ZMOD 2 ^ (8 * width.bytes)] := by
  have size : width.modulus = 2 ^ (8 * width.bytes) := by cases width <;> rfl
  have positive : 0 < 8 * width.bytes := by cases width <;> decide
  unfold Width.wrap
  rw [size]
  refine ⟨isSigned_bmod positive value, ?_⟩
  have congruent := Int.bmod_emod (x := value) (m := 2 ^ (8 * width.bytes))
  push_cast at congruent
  exact congruent

theorem transferDelta?_eq (width : Width) (operand : Operand) :
    Instruction.transferDelta? width operand =
      if operand.stackStep = 0 then none else some (operand.stackStep * (width.bytes : Int)) := by
  cases operand with
  | preDecrement base | postIncrement base =>
    by_cases pointer : base.isStackPointer = true
    all_goals simp [Instruction.transferDelta?, Operand.stackStep, pointer]
  | _ => rfl

/-- Among operands of which at most one moves the stack pointer, the first that does
accounts for all of them. -/
theorem findSome?_transferDelta? (width : Width) {operands : List Operand}
    (single : operands.countP (fun operand => operand.stackStep ≠ 0) ≤ 1)
    (some : ∃ operand ∈ operands, operand.stackStep ≠ 0) :
    operands.findSome? (Instruction.transferDelta? width) =
      .some (operands.map fun operand => operand.stackStep * (width.bytes : Int)).sum := by
  induction operands with
  | nil => simp at some
  | cons operand rest ih =>
    rw [List.findSome?_cons, transferDelta?_eq, List.map_cons, List.sum_cons]
    by_cases still : operand.stackStep = 0
    · rw [List.countP_cons_of_neg (by simp [still])] at single
      simp only [still, List.mem_cons, exists_eq_or_imp, ne_eq, not_true_eq_false, false_or] at some
      simpa [still] using ih single some
    · -- This was the one operand that moves, so the others add nothing.
      rw [List.countP_cons_of_pos (by simp [still])] at single
      have quiet := List.countP_eq_zero.mp (Nat.le_zero.mp (Nat.le_of_succ_le_succ single))
      have nothing : (rest.map fun operand => operand.stackStep * (width.bytes : Int)).sum = 0 := by
        apply List.sum_eq_zero
        intro value member
        obtain ⟨other, inside, rfl⟩ := List.mem_map.mp member
        have zero : other.stackStep = 0 := by simpa using quiet other inside
        rw [zero, Int.zero_mul]
      simp [still, nothing]

/-- Only transfers step through memory. -/
theorem mnemonic_of_step : ∀ opcode ∈ opcodes, ∀ slot ∈ opcode.slots,
    slot.kind = .increment ∨ slot.kind = .decrement →
      opcode.mnemonic ∈ [.mov, .ldc, .stc, .ldm, .stm, .mac] := by
  decide +kernel

theorem countP_steps_le : ∀ opcode ∈ opcodes, opcode.mnemonic ≠ .mac →
    (opcode.slots.map Slot.kind).countP (fun kind => kind = .increment ∨ kind = .decrement) ≤ 1 := by
  decide +kernel

/-- Lists of registers go to the stack and come from it, and nowhere else. -/
theorem slots_of_list : ∀ opcode ∈ opcodes,
    (opcode.mnemonic = .ldm → opcode.slots = [.popped, .listTo 'n' 'k']) ∧
      (opcode.mnemonic = .stm → opcode.slots = [.listFrom 'n' 'k', .pushed]) := by
  decide +kernel

theorem Operand.kind_of_stackStep {operand : Operand} (steps : operand.stackStep ≠ 0) :
    operand.kind = .increment ∨ operand.kind = .decrement := by
  cases operand with
  | preDecrement base => exact .inr rfl
  | postIncrement base => exact .inl rfl
  | _ => exact absurd rfl steps

theorem Operand.eq_registerList {operand : Operand} (lists : operand.kind = .list) :
    ∃ first count, operand = .registerList first count := by
  cases operand with
  | registerList first count => exact ⟨first, count, rfl⟩
  | register name =>
    cases name with
    | control name => cases lists
    | general part number => cases part <;> cases lists
  | _ => cases lists

section
variable {bytes : List UInt8} {address : Address} {mode : Mode} {instruction : Instruction}

theorem Encoding.Opcode.mnemonic_eq_of_build {opcode : Opcode} (member : opcode ∈ opcodes)
    (built : opcode.build bytes address mode = .ok instruction)
    (plain : opcode.mnemonic ≠ .branch .always) : instruction.mnemonic = opcode.mnemonic := by
  obtain ⟨operands, -, rfl⟩ := build_eq_ok_iff.mp built
  change opcode.mnemonicOf bytes = opcode.mnemonic
  cases condition : opcode.condition with
  | none => simp only [mnemonicOf, condition]
  | some letter => exact absurd (mnemonic_of_condition opcode member (by simp [condition])) plain

theorem mnemonic_of_stackStep (decoded : decode bytes address mode = .ok instruction)
    {operand : Operand} (used : operand ∈ instruction.operands) (steps : operand.stackStep ≠ 0) :
    instruction.mnemonic ∈ [.mov, .ldc, .stc, .ldm, .stm, .mac] := by
  obtain ⟨opcode, member, -, built⟩ := exists_opcode decoded
  have shown : operand.kind ∈ opcode.slots.map Slot.kind := by
    rw [← Opcode.kinds_of_build built]
    exact List.mem_map_of_mem used
  obtain ⟨slot, present, same⟩ := List.mem_map.mp shown
  have listed := mnemonic_of_step opcode member slot present (same ▸ operand.kind_of_stackStep steps)
  rw [Opcode.mnemonic_eq_of_build member built (by rintro same; simp [same] at listed)]
  exact listed

theorem countP_stackStep_le (decoded : decode bytes address mode = .ok instruction)
    (other : instruction.mnemonic ≠ .mac) :
    instruction.operands.countP (fun operand => operand.stackStep ≠ 0) ≤ 1 := by
  obtain ⟨opcode, member, -, built⟩ := exists_opcode decoded
  have plain : opcode.mnemonic ≠ .mac := by
    intro same
    apply other
    rw [Opcode.mnemonic_eq_of_build member built (by simp [same]), same]
  have single := countP_steps_le opcode member plain
  rw [← Opcode.kinds_of_build built, List.countP_map] at single
  refine le_trans (List.countP_mono_left ?_) single
  intro operand _ steps
  simpa using operand.kind_of_stackStep (by simpa using steps)

theorem operands_of_ldm (decoded : decode bytes address mode = .ok instruction)
    (lists : instruction.mnemonic = .ldm) : ∃ first count, instruction.operands =
      [.postIncrement .stackPointer, .registerList first count] := by
  obtain ⟨opcode, member, -, built⟩ := exists_opcode decoded
  have slots := (slots_of_list opcode member).1
    ((Opcode.mnemonic_of_build built (by simp [lists])).trans lists)
  obtain ⟨operands, made, rfl⟩ := Opcode.build_eq_ok_iff.mp built
  rw [slots] at made
  cases made with
  | cons popped rest =>
    cases popped
    cases rest with
    | cons listed rest =>
      cases rest
      obtain ⟨first, count, rfl⟩ := Operand.eq_registerList (Slot.kind_of_operand listed)
      exact ⟨first, count, rfl⟩

theorem operands_of_stm (decoded : decode bytes address mode = .ok instruction)
    (lists : instruction.mnemonic = .stm) : ∃ first count, instruction.operands =
      [.registerList first count, .preDecrement .stackPointer] := by
  obtain ⟨opcode, member, -, built⟩ := exists_opcode decoded
  have slots := (slots_of_list opcode member).2
    ((Opcode.mnemonic_of_build built (by simp [lists])).trans lists)
  obtain ⟨operands, made, rfl⟩ := Opcode.build_eq_ok_iff.mp built
  rw [slots] at made
  cases made with
  | cons listed rest =>
    cases rest with
    | cons pushed rest =>
      cases pushed
      cases rest
      obtain ⟨first, count, rfl⟩ := Operand.eq_registerList (Slot.kind_of_operand listed)
      exact ⟨first, count, rfl⟩

theorem stackDelta?_of_passes (decoded : decode bytes address mode = .ok instruction)
    (other : instruction.mnemonic ≠ .mac) (passes : instruction.PassesStack) :
    instruction.stackDelta? = some instruction.stackTransfer := by
  rcases passes with push | pop | ⟨operand, used, steps⟩
  · simp [Instruction.stackDelta?, Instruction.stackTransfer, Instruction.transferBytes, push]
  · simp [Instruction.stackDelta?, Instruction.stackTransfer, Instruction.transferBytes, pop]
  · have single := findSome?_transferDelta? instruction.effectiveWidth
      (countP_stackStep_le decoded other) ⟨operand, used, steps⟩
    have listed := mnemonic_of_stackStep decoded used steps
    simp only [List.mem_cons, List.not_mem_nil, or_false] at listed
    rcases listed with moves | loads | stores | lists | lists | mac
    · simp [Instruction.stackDelta?, Instruction.stackTransfer, Instruction.transferBytes, moves, single]
    · simp [Instruction.stackDelta?, Instruction.stackTransfer, Instruction.transferBytes, loads, single]
    · simp [Instruction.stackDelta?, Instruction.stackTransfer, Instruction.transferBytes, stores, single]
    -- A list passes through its operand as a whole.
    · obtain ⟨first, count, operands⟩ := operands_of_ldm decoded lists
      simp [Instruction.stackDelta?, Instruction.stackTransfer, Instruction.transferBytes, lists,
        operands, Operand.stackStep, Operand.listed, Register.stackPointer, Register.isStackPointer]
      rfl
    · obtain ⟨first, count, operands⟩ := operands_of_stm decoded lists
      simp [Instruction.stackDelta?, Instruction.stackTransfer, Instruction.transferBytes, lists,
        operands, Operand.stackStep, Operand.listed, Register.stackPointer, Register.isStackPointer]
      rfl
    · exact absurd mac other

end

namespace Instruction
variable {instruction : Instruction}

theorem stackDelta?_of_adjusts {amount : Int} (adjusts : instruction.AdjustsStack amount) :
    instruction.stackDelta? = some (instruction.effectiveWidth.wrap amount) := by
  cases adjusts with
  | up mnemonic operands pointer =>
    simp only [List.mem_cons, List.not_mem_nil, or_false] at mnemonic
    have writes := Register.isStackPointer_iff.mpr pointer
    rcases mnemonic with same | same | same
    all_goals simp [stackDelta?, same, writesStackPointer, immediateSource?, destination?, source?,
      operands, Operand.register?, Operand.immediate?, writes]
  | down mnemonic operands pointer =>
    simp only [List.mem_cons, List.not_mem_nil, or_false] at mnemonic
    have writes := Register.isStackPointer_iff.mpr pointer
    rcases mnemonic with same | same | same
    all_goals simp [stackDelta?, same, writesStackPointer, immediateSource?, destination?, source?,
      operands, Operand.register?, Operand.immediate?, writes]

/-- A constant source and the stack pointer as the destination leave one form. -/
theorem operands_of_adjustment {value : Nat} (writes : instruction.writesStackPointer = true)
    (constant : instruction.immediateSource? = some value) :
    ∃ width register, instruction.operands = [.immediate value width, .register register] ∧
      (register = .general .whole 7 ∨ register = .general .low 7) := by
  obtain ⟨source, read, same⟩ := Option.bind_eq_some_iff.mp constant
  obtain ⟨destination, operands⟩ : ∃ destination, instruction.operands = [source, destination] := by
    unfold source? at read
    split at read
    next first second operands => exact ⟨second, Option.some.inj read ▸ operands⟩
    next => cases read
  cases source with
  | immediate found width =>
    obtain rfl := Option.some.inj same
    cases destination with
    | register register =>
      refine ⟨width, register, operands, Register.isStackPointer_iff.mp ?_⟩
      simpa [writesStackPointer, destination?, operands, Operand.register?] using writes
    | _ => simp [writesStackPointer, destination?, operands, Operand.register?] at writes
  | _ => cases same

theorem exists_adjusts {value : Nat}
    (group : instruction.mnemonic ∈ [.add, .adds, .inc] ++ [.sub, .subs, .dec])
    (writes : instruction.writesStackPointer = true)
    (constant : instruction.immediateSource? = some value) :
    ∃ amount, instruction.AdjustsStack amount := by
  obtain ⟨width, register, operands, pointer⟩ := operands_of_adjustment writes constant
  rcases List.mem_append.mp group with up | down
  · exact ⟨value, .up up operands pointer⟩
  · exact ⟨-value, .down down operands pointer⟩

end Instruction

section
variable {bytes : List UInt8} {address : Address} {mode : Mode} {instruction : Instruction}

theorem stackDelta?_of_still (decoded : decode bytes address mode = .ok instruction)
    (passes : ¬ instruction.PassesStack) (adjusts : ∀ amount, ¬ instruction.AdjustsStack amount) :
    instruction.stackDelta? = none := by
  have untouched : instruction.operands.findSome?
      (Instruction.transferDelta? instruction.effectiveWidth) = none := by
    apply List.findSome?_eq_none_iff.mpr
    intro operand used
    rw [transferDelta?_eq, if_pos]
    by_contra steps
    exact passes (.inr (.inr ⟨operand, used, steps⟩))
  cases mnemonic : instruction.mnemonic with
  | push => exact absurd (.inl mnemonic) passes
  | pop => exact absurd (.inr (.inl mnemonic)) passes
  | ldm =>
    obtain ⟨first, count, operands⟩ := operands_of_ldm decoded mnemonic
    exact absurd (.inr (.inr ⟨_, by rw [operands]; exact .head _, by decide⟩)) passes
  | stm =>
    obtain ⟨first, count, operands⟩ := operands_of_stm decoded mnemonic
    exact absurd (.inr (.inr ⟨_, by rw [operands]; exact .tail _ (.head _), by decide⟩)) passes
  | mov | ldc | stc => simp [Instruction.stackDelta?, mnemonic, untouched]
  | add | adds | inc | sub | subs | dec =>
    have unknown : instruction.writesStackPointer = true →
        ∀ value, instruction.immediateSource? ≠ some value := by
      intro writes value constant
      obtain ⟨amount, adjusted⟩ :=
        Instruction.exists_adjusts (by simp [mnemonic]) writes constant
      exact adjusts amount adjusted
    simpa [Instruction.stackDelta?, mnemonic] using unknown
  | _ => simp [Instruction.stackDelta?, mnemonic]

/-- All movement of the stack pointer is found, except that of multiply-accumulate. -/
theorem accountsForStack_iff (decoded : decode bytes address mode = .ok instruction) :
    instruction.AccountsForStack ↔
      ¬ (instruction.mnemonic = .mac ∧ ∃ operand ∈ instruction.operands, operand.stackStep ≠ 0) := by
  constructor
  · rintro ⟨passes, -, -⟩ ⟨mac, moved⟩
    have found := passes (.inr (.inr moved))
    simp [Instruction.stackDelta?, mac] at found
  · intro noticed
    refine ⟨fun passes => ?_, fun amount adjusts => ?_, stackDelta?_of_still decoded⟩
    · apply stackDelta?_of_passes decoded ?_ passes
      intro mac
      rcases passes with push | pop | moved
      · cases mac.symm.trans push
      · cases mac.symm.trans pop
      · exact noticed ⟨mac, moved⟩
    · exact ⟨_, Instruction.stackDelta?_of_adjusts adjusts, Width.wrap_spec _ amount⟩

end

/-- Four registers that are put on the stack together. -/
theorem accountsForStack_iff_list : ∃ instruction,
    decode [0x01, 0x30, 0x6D, 0xF4] 0x100 ⟨.h8s, .advanced⟩ = .ok instruction ∧
      instruction.AccountsForStack ∧ instruction.stackDelta? = some (-16) := by
  have list : decode [0x01, 0x30, 0x6D, 0xF4] 0x100 ⟨.h8s, .advanced⟩ =
      .ok ⟨0x100, 4, .stm, some .long,
        [.registerList (.general .whole 4) 4, .preDecrement (.general .whole 7)], false, true⟩ :=
    (decode_eq_decodeWith ..).trans (by decide +kernel)
  have accounts := (accountsForStack_iff list).mpr (fun missed => nomatch missed.1)
  exact ⟨_, list, accounts, accounts.passes (.inr (.inr ⟨_, .tail _ (.head _), by decide⟩))⟩

/-- `mac @sp+,@sp+` takes both factors from the stack. -/
theorem factors_from_stack : ∃ instruction,
    decode [0x01, 0x60, 0x6D, 0x77] 0x100 ⟨.h8s, .advanced⟩ = .ok instruction ∧
      instruction.operands =
        [.postIncrement .stackPointer, .postIncrement .stackPointer] ∧
      instruction.stackTransfer = 4 ∧ instruction.stackDelta? = none ∧
      ¬ instruction.AccountsForStack := by
  have mac : decode [0x01, 0x60, 0x6D, 0x77] 0x100 ⟨.h8s, .advanced⟩ =
      .ok ⟨0x100, 4, .mac, none,
        [.postIncrement .stackPointer, .postIncrement .stackPointer], false, true⟩ :=
    (decode_eq_decodeWith ..).trans (by decide +kernel)
  refine ⟨_, mac, rfl, rfl, rfl, ?_⟩
  intro accounts
  have moved := accounts.passes (.inr (.inr ⟨_, .head _, by decide⟩))
  cases moved

end H8
