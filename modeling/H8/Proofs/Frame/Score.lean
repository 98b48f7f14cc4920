import H8.Heuristics
import H8.Proofs.Frame.Extent
import H8.Proofs.Stack.Movement

/-! How likely a function starts with an instruction, and whether it has a prologue.

An instruction scores high if it lowers the stack pointer or copies it. Lowering
it is the business of prologues, but for one case: the condition codes can be
pushed too, and a prologue does not save them.
-/

set_option autoImplicit false

namespace H8

open Encoding

namespace Instruction

def PushesStatus (instruction : Instruction) : Prop :=
  instruction.mnemonic = .stc ∧ ∃ source base : Register, base.isStackPointer = true ∧
    instruction.operands = [.register source, .preDecrement base]

def LowersStack (instruction : Instruction) : Prop :=
  ∃ delta < 0, instruction.stackDelta? = some delta

end Instruction

theorem Width.bytes_pos (width : Width) : 0 < width.bytes := by
  cases width <;> decide

def Kind.registers : List Kind :=
  [.byteRegister, .wordRegister, .longRegister, .control .ccr, .control .exr]

theorem Operand.eq_register {operand : Operand} (named : operand.kind ∈ Kind.registers) :
    ∃ register, operand = .register register := by
  cases operand with
  | register name => exact ⟨name, rfl⟩
  | _ => simp [Operand.kind, Kind.registers] at named

theorem kinds_of_decrement : ∀ opcode ∈ opcodes, Kind.decrement ∈ opcode.slots.map Slot.kind →
    opcode.mnemonic = .stm ∨ (opcode.mnemonic = .mov ∨ opcode.mnemonic = .stc) ∧
      ∃ kind ∈ Kind.registers, opcode.slots.map Slot.kind = [kind, .decrement] := by
  decide +kernel

theorem constant_of_inc : ∀ opcode ∈ opcodes, opcode.mnemonic = .inc →
    opcode.slots.length = 1 ∨ opcode.constant? = some 1 ∨ opcode.constant? = some 2 := by
  decide +kernel

section
variable {bytes : List UInt8} {address : Address} {mode : Mode} {instruction : Instruction}

theorem operands_of_decrement (decoded : decode bytes address mode = .ok instruction) {base : Register}
    (used : .preDecrement base ∈ instruction.operands) (single : instruction.mnemonic ≠ .stm) :
    (instruction.mnemonic = .mov ∨ instruction.mnemonic = .stc) ∧
      ∃ source, instruction.operands = [.register source, .preDecrement base] := by
  obtain ⟨opcode, member, -, built⟩ := exists_opcode decoded
  have kinds := Opcode.kinds_of_build built
  have shown : Kind.decrement ∈ opcode.slots.map Slot.kind :=
    kinds ▸ List.mem_map_of_mem (f := Operand.kind) used
  have mnemonic (plain : opcode.mnemonic ≠ .branch .always) :=
    Opcode.mnemonic_eq_of_build member built plain
  rcases kinds_of_decrement opcode member shown with lists | ⟨stores, kind, named, listed⟩
  · exact absurd ((mnemonic (by simp [lists])).trans lists) single
  · have same := mnemonic (by rcases stores with same | same <;> simp [same])
    refine ⟨same ▸ stores, ?_⟩
    rw [listed] at kinds
    obtain ⟨first, later, operands, source, rest⟩ := List.map_eq_cons_iff.mp kinds
    obtain ⟨second, rfl, -⟩ := List.map_eq_singleton_iff.mp rest
    obtain ⟨register, rfl⟩ := Operand.eq_register (source ▸ named)
    rw [operands, List.mem_cons, List.mem_singleton] at used
    rcases used with impossible | rfl
    · cases impossible
    · exact ⟨register, operands⟩

theorem stackDelta?_of_inc (decoded : decode bytes address mode = .ok instruction)
    (steps : instruction.mnemonic = .inc) : ∀ delta ∈ instruction.stackDelta?, 0 < delta := by
  intro delta moves
  simp only [Instruction.stackDelta?, steps, Option.mem_def, Option.ite_none_right_eq_some] at moves
  obtain ⟨writes, stepped⟩ := moves
  obtain ⟨value, constant, rfl⟩ : ∃ value, instruction.immediateSource? = some value ∧
      instruction.effectiveWidth.wrap (1 * value) = delta := by
    cases constant : instruction.immediateSource? with
    | none => simp [constant] at stepped
    | some value => exact ⟨value, rfl, by simpa [constant] using stepped⟩
  obtain ⟨width, register, operands, -⟩ := Instruction.operands_of_adjustment writes constant
  obtain ⟨opcode, member, -, built⟩ := exists_opcode decoded
  have plain := (Opcode.mnemonic_of_build built (by simp [steps])).trans steps
  have small : value = 1 ∨ value = 2 := by
    rcases constant_of_inc opcode member plain with short | one | two
    · have count := congrArg List.length (Opcode.kinds_of_build built)
      simp [operands, short] at count
    · have head := Opcode.head?_of_constant one built
      rw [operands, List.head?_cons] at head
      exact .inl (Operand.immediate.inj (Option.some.inj head)).1
    · have head := Opcode.head?_of_constant two built
      rw [operands, List.head?_cons] at head
      exact .inr (Operand.immediate.inj (Option.some.inj head)).1
  rcases small with rfl | rfl
  all_goals cases instruction.effectiveWidth <;> decide

theorem exists_preDecrement {width : Width} {operands : List Operand} {delta : Int} (negative : delta < 0)
    (moves : operands.findSome? (Instruction.transferDelta? width) = some delta) :
    ∃ base : Register, base.isStackPointer = true ∧ .preDecrement base ∈ operands := by
  obtain ⟨operand, used, step⟩ := List.exists_of_findSome?_eq_some moves
  have positive := width.bytes_pos
  cases operand with
  | preDecrement base =>
    simp only [Instruction.transferDelta?, Option.ite_none_right_eq_some] at step
    exact ⟨base, step.1, used⟩
  | postIncrement base =>
    simp only [Instruction.transferDelta?, Option.ite_none_right_eq_some, Option.some.injEq] at step
    omega
  | _ => cases step

/-- What lowers the stack pointer reserves space in the way of prologues, or pushes
the condition codes. -/
theorem reserves_of_lowersStack (decoded : decode bytes address mode = .ok instruction)
    (lowers : instruction.LowersStack) :
    (∃ role, instruction.Reserves role) ∨ instruction.PushesStatus := by
  obtain ⟨delta, negative, moves⟩ := lowers
  cases mnemonic : instruction.mnemonic with
  | push => exact .inl ⟨_, .push mnemonic⟩
  | stm => exact .inl ⟨_, .list mnemonic⟩
  | add | adds | sub | subs | dec => exact .inl ⟨_, .constant (by simp [mnemonic])⟩
  | inc =>
    have positive := stackDelta?_of_inc decoded mnemonic delta moves
    omega
  | pop =>
    have positive := instruction.effectiveWidth.bytes_pos
    simp only [Instruction.stackDelta?, mnemonic, Option.some.injEq] at moves
    omega
  | ldm =>
    obtain ⟨first, count, operands⟩ := operands_of_ldm decoded mnemonic
    have raised : instruction.stackDelta? = some (4 * count) := by
      simp [Instruction.stackDelta?, mnemonic, operands, List.findSome?_cons, Instruction.listBytes?]
    have same := Option.some.inj (raised.symm.trans moves)
    omega
  | mov | stc | ldc =>
    simp only [Instruction.stackDelta?, mnemonic] at moves
    obtain ⟨base, pointer, used⟩ := exists_preDecrement negative moves
    obtain ⟨stores, source, operands⟩ := operands_of_decrement decoded used (by simp [mnemonic])
    rcases stores with same | same
    · exact .inl ⟨_, .store same operands pointer⟩
    · exact .inr ⟨same, source, base, pointer, operands⟩
  | _ => simp [Instruction.stackDelta?, mnemonic] at moves

theorem lowersStack_of_store {source base : Register}
    (stores : instruction.mnemonic = .mov ∨ instruction.mnemonic = .stc)
    (pointer : base.isStackPointer = true)
    (operands : instruction.operands = [.register source, .preDecrement base]) :
    instruction.LowersStack := by
  have positive := instruction.effectiveWidth.bytes_pos
  refine ⟨-instruction.effectiveWidth.bytes, by omega, ?_⟩
  rcases stores with same | same
  all_goals simp [Instruction.stackDelta?, same, operands, List.findSome?_cons,
    Instruction.transferDelta?, pointer]

theorem lowersStack_of_saves (decoded : decode bytes address mode = .ok instruction)
    (saves : instruction.Reserves .savedRegister) : instruction.LowersStack := by
  cases saves with
  | push mnemonic =>
    have positive := instruction.effectiveWidth.bytes_pos
    exact ⟨-instruction.effectiveWidth.bytes, by omega, by simp [Instruction.stackDelta?, mnemonic]⟩
  | list mnemonic =>
    obtain ⟨first, count, operands⟩ := operands_of_stm decoded mnemonic
    have several : 2 ≤ count := (operands_wellFormed_of_decode decoded
      (.registerList first count) (by rw [operands]; exact .head _)).1
    refine ⟨-(4 * count), by omega, ?_⟩
    simp [Instruction.stackDelta?, mnemonic, operands, List.findSome?_cons, Instruction.listBytes?]
  | store mnemonic operands pointer => exact lowersStack_of_store (.inl mnemonic) pointer operands

theorem Instruction.any_stackDelta?_iff :
    (instruction.stackDelta?.any (· < 0)) = true ↔ instruction.LowersStack := by
  cases moves : instruction.stackDelta? <;> simp [LowersStack, moves]

theorem Instruction.le_functionScore_iff : 60 ≤ instruction.functionScore ↔
    instruction.savesRegister = true ∨ instruction.LowersStack ∨ instruction.pointerSetup?.isSome = true := by
  rw [← any_stackDelta?_iff]
  unfold functionScore
  split_ifs <;> simp_all

theorem le_functionScore_iff_inPrologue (decoded : decode bytes address mode = .ok instruction) :
    60 ≤ instruction.functionScore ↔ instruction.InPrologue ∨ instruction.PushesStatus := by
  rw [Instruction.le_functionScore_iff]
  constructor
  · rintro (saves | lowers | copies)
    · have reserves := Instruction.savesRegister_iff.mp saves
      exact .inl (.inr ⟨⟨_, reserves⟩, lowersStack_of_saves decoded reserves⟩)
    · exact (reserves_of_lowersStack decoded lowers).imp_left fun reserves => .inr ⟨reserves, lowers⟩
    · obtain ⟨register, copies⟩ := Option.isSome_iff_exists.mp copies
      exact .inl (.inl ⟨register, Instruction.pointerSetup?_eq_some_iff.mp copies⟩)
  · rintro ((⟨register, copies⟩ | ⟨-, lowers⟩) | ⟨stores, source, base, pointer, operands⟩)
    · rw [Instruction.pointerSetup?_eq_some_iff.mpr copies]
      exact .inr (.inr rfl)
    · exact .inr (.inl lowers)
    · exact .inr (.inl (lowersStack_of_store (.inr stores) pointer operands))

theorem Instruction.PushesStatus.not_inPrologue (pushes : instruction.PushesStatus) :
    ¬ instruction.InPrologue := by
  obtain ⟨stores, -⟩ := pushes
  rintro (⟨register, copies, -⟩ | ⟨⟨role, reserves⟩, -⟩)
  · cases stores.symm.trans copies.1
  · cases reserves with
    | push mnemonic | list mnemonic | store mnemonic => cases stores.symm.trans mnemonic
    | constant mnemonic => simp [stores] at mnemonic

theorem Instruction.PushesStatus.functionScore_eq (pushes : instruction.PushesStatus) :
    instruction.functionScore = 70 := by
  obtain ⟨stores, source, base, pointer, operands⟩ := pushes
  have lowers := lowersStack_of_store (.inr stores) pointer operands
  have keeps : ¬ instruction.savesRegister = true := by simp [savesRegister, stores]
  unfold functionScore
  rw [if_neg keeps, if_pos (any_stackDelta?_iff.mpr lowers)]

end

section
variable {view : View} {mode : Mode} {entry : Address} {instruction : Instruction}

theorem buildFrame_eq_noPrologue_iff (decoded : view.decodeAt entry mode = .ok instruction) :
    buildFrame view mode entry = .error .noPrologue ↔ ¬ instruction.InPrologue := by
  rw [← Instruction.isSome_prologueStep?_iff, Bool.not_eq_true, Option.isSome_eq_false_iff,
    Option.isNone_iff_eq_none]
  have first : prologueAt? view mode entry entry =
      instruction.prologueStep?.map fun step => (step, instruction.next) := by
    simp [prologueAt?, decoded]
  constructor
  · intro failed
    cases recognised : instruction.prologueStep? with
    | none => rfl
    | some step =>
      -- Once there is a first step, following fails for the budget alone.
      rw [recognised] at first
      have followed := followed_of_prologueAt? first
      rw [failed] at followed
      cases followed
  · intro missing
    rw [missing] at first
    simp only [buildFrame, first, Option.map_none]

/-- The first instruction of a function scores at least 60 exactly if the function has
a prologue, unless it pushes the condition codes. That scores 70 and begins no
prologue. -/
theorem functionScore_agrees_iff (decoded : view.decodeAt entry mode = .ok instruction) :
    ((60 ≤ instruction.functionScore ↔ buildFrame view mode entry ≠ .error .noPrologue) ↔
        ¬ instruction.PushesStatus) ∧
      (instruction.PushesStatus → instruction.functionScore = 70 ∧
        buildFrame view mode entry = .error .noPrologue) := by
  have high := le_functionScore_iff_inPrologue (View.decode_of_decodeAt decoded)
  have built := buildFrame_eq_noPrologue_iff decoded
  refine ⟨?_, fun pushes => ⟨pushes.functionScore_eq, built.mpr pushes.not_inPrologue⟩⟩
  rw [high, ne_eq, built, not_not]
  constructor
  · intro agrees pushes
    exact pushes.not_inPrologue (agrees.mp (.inr pushes))
  · intro other
    exact or_iff_left other

/-- `add.w #-2,sp` makes room for a local variable; `stc ccr,@-sp` scores as high. -/
theorem functionScore_agrees_iff_samples :
    let view := (Database.ofMemory (.ofImage #[0x79, 0x17, 0xFF, 0xFE, 0x01, 0x40, 0x6D, 0xF0]
      0x100)).view
    let mode : Mode := ⟨.h8300h, .normal⟩
    (∃ first, view.decodeAt 0x100 mode = .ok first ∧ 60 ≤ first.functionScore ∧
      buildFrame view mode 0x100 ≠ .error .noPrologue) ∧
    ∃ second, view.decodeAt 0x104 mode = .ok second ∧ second.functionScore = 70 ∧
      buildFrame view mode 0x104 = .error .noPrologue := by
  intro view mode
  let first : Instruction := ⟨0x100, 4, .add, some .word,
    [.immediate 0xFFFE .word, .register (.general .low 7)], false, false⟩
  let second : Instruction := ⟨0x104, 4, .stc, some .word,
    [.register (.control .ccr), .preDecrement .stackPointer], false, false⟩
  have adds : view.decodeAt 0x100 mode = .ok first := by decide +kernel
  have stores : view.decodeAt 0x104 mode = .ok second := by decide +kernel
  have high : 60 ≤ first.functionScore := by decide
  refine ⟨⟨first, adds, high, ?_⟩, second, stores, ?_⟩
  · exact ((functionScore_agrees_iff adds).1.mpr fun pushes => nomatch pushes.1).mp high
  · exact (functionScore_agrees_iff stores).2 ⟨rfl, _, _, rfl, rfl⟩

end

end H8
