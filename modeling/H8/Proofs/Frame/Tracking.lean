import H8.Database
import H8.Frame.Prologue
import H8.Proofs.Stack.Walk
import Mathlib.Data.List.Forall2

/-! The frame of a function agrees with walks through its prologue.

Every instruction of a prologue falls through, and the frame moves its stack
pointer as a walk does. So a walk from the entry finds the offsets that the
frame records, at the end of the prologue and at each instruction in it.
-/

set_option autoImplicit false

namespace H8

inductive Prologue (view : View) (mode : Mode) (entry : Address) :
    List Instruction → Address → Prop where
  | start : Prologue view mode entry [] entry
  | step {earlier : List Instruction} {address : Address} {instruction : Instruction}
      (before : Prologue view mode entry earlier address)
      (untargeted : address = entry ∨ view.isCodeTarget address = false)
      (decoded : view.decodeAt address mode = .ok instruction)
      (recognised : instruction.prologueStep?.isSome = true) :
      Prologue view mode entry (earlier ++ [instruction]) instruction.next

namespace Instruction
variable {instruction : Instruction}

def CopiesStackPointer (instruction : Instruction) (register : Register) : Prop :=
  instruction.mnemonic = .mov ∧ ∃ source : Register, source.isStackPointer = true ∧
    instruction.operands = [.register source, .register register]

def Makes (instruction : Instruction) (region : Region) : Prop :=
  instruction.prologueRole? = some region.role ∧
    ∃ delta < 0, instruction.stackDelta? = some delta ∧ region.size = delta.natAbs

theorem copies_of_pointerSetup? {register : Register}
    (copies : instruction.pointerSetup? = some register) :
    instruction.CopiesStackPointer register := by
  unfold pointerSetup? at copies
  split at copies
  · next source destination mnemonic operands =>
    simp only [Bool.and_eq_true, Option.ite_none_right_eq_some, Option.some.injEq] at copies
    obtain ⟨⟨pointer, -⟩, rfl⟩ := copies
    exact ⟨mnemonic, source, pointer, operands⟩
  · cases copies

theorem stackDelta?_of_copies {register : Register}
    (copies : instruction.CopiesStackPointer register) : instruction.stackDelta? = none := by
  obtain ⟨mnemonic, source, -, operands⟩ := copies
  simp [stackDelta?, mnemonic, operands, transferDelta?]

theorem prologueStep?_eq_setPointer {register : Register} :
    instruction.prologueStep? = some (.setPointer register) ↔
      instruction.pointerSetup? = some register := by
  unfold prologueStep?
  cases instruction.pointerSetup? with
  | some other => simp
  | none =>
    cases instruction.prologueRole? with
    | none => simp
    | some role => cases instruction.stackDelta? <;> simp

theorem prologueStep?_eq_reserve {role : Role} {delta : Int}
    (step : instruction.prologueStep? = some (.reserve role delta)) :
    instruction.pointerSetup? = none ∧ instruction.prologueRole? = some role ∧
      instruction.stackDelta? = some delta ∧ delta < 0 := by
  unfold prologueStep? at step
  cases copies : instruction.pointerSetup? with
  | some other => simp [copies] at step
  | none =>
    cases roles : instruction.prologueRole? with
    | none => simp [copies, roles] at step
    | some other =>
      cases moves : instruction.stackDelta? with
      | none => simp [copies, roles, moves] at step
      | some distance =>
        simp only [copies, roles, moves, Option.ite_none_right_eq_some, Option.some.injEq,
          PrologueStep.reserve.injEq] at step
        obtain ⟨negative, rfl, rfl⟩ := step
        exact ⟨rfl, rfl, rfl, negative⟩

theorem mnemonic_of_savesRegister (saves : instruction.savesRegister = true) :
    instruction.mnemonic = .push ∨ instruction.mnemonic = .stm ∨ instruction.mnemonic = .mov := by
  unfold savesRegister at saves
  split at saves
  · next mnemonic => exact .inl mnemonic
  · next mnemonic => exact .inr (.inl mnemonic)
  · next mnemonic _ => exact .inr (.inr mnemonic)
  · cases saves

theorem edges_of_prologueRole? {role : Role} (known : instruction.prologueRole? = some role) :
    instruction.edges = [.fallthrough instruction.next] := by
  unfold prologueRole? at known
  split at known
  · next saves =>
    rcases mnemonic_of_savesRegister saves with mnemonic | mnemonic | mnemonic
    all_goals simp [edges, mnemonic]
  · split at known
    case h_6 => cases known
    all_goals next mnemonic => simp [edges, mnemonic]

theorem edges_of_prologueStep? (recognised : instruction.prologueStep?.isSome = true) :
    instruction.edges = [.fallthrough instruction.next] := by
  obtain ⟨step, recognised⟩ := Option.isSome_iff_exists.mp recognised
  cases step with
  | setPointer register =>
    obtain ⟨mnemonic, -⟩ := copies_of_pointerSetup? (prologueStep?_eq_setPointer.mp recognised)
    simp [edges, mnemonic]
  | reserve role delta =>
    exact edges_of_prologueRole? (prologueStep?_eq_reserve recognised).2.1

theorem fallsThrough_of_edges (onward : instruction.edges = [.fallthrough instruction.next])
    (view : View) (mode : Mode) : (instruction.effects view mode).flow.fallsThrough = true := by
  simp [effects, Effects.flow, onward, Flow.fallsThrough]

end Instruction

theorem prologueAt?_eq_some {view : View} {mode : Mode} {entry address next : Address}
    {step : PrologueStep} (found : prologueAt? view mode entry address = some (step, next)) :
    ∃ instruction, (address = entry ∨ view.isCodeTarget address = false) ∧
      view.decodeAt address mode = .ok instruction ∧ instruction.prologueStep? = some step ∧
      instruction.next = next := by
  unfold prologueAt? at found
  split at found
  · cases found
  · next reached =>
    cases decoded : view.decodeAt address mode with
    | error error => simp [decoded] at found
    | ok instruction =>
      simp only [decoded, Option.map_eq_some_iff, Prod.mk.injEq] at found
      obtain ⟨other, recognised, rfl, after⟩ := found
      refine ⟨instruction, ?_, rfl, recognised, after⟩
      by_cases same : address = entry
      · exact .inl same
      · exact .inr (by simpa [same] using reached)

theorem Prologue.falls {view : View} {mode : Mode} {entry address : Address}
    {instructions : List Instruction} (prologue : Prologue view mode entry instructions address) :
    Falls view mode entry instructions address := by
  induction prologue with
  | start => exact .nil entry
  | step _ _ decoded recognised ih =>
    have flows := Instruction.fallsThrough_of_edges
      (Instruction.edges_of_prologueStep? recognised) view mode
    exact ih.append (.cons decoded flows (.nil _))

structure Tracked (view : View) (mode : Mode) (entry : Address) (prologue : List Instruction)
    (frame : Frame) : Prop where
  entry_eq : frame.entry = entry
  path : Prologue view mode entry prologue frame.prologueEnd
  offset : prologue.foldl Instruction.moveStack 0 = frame.stackOffset
  regions : ∃ made, frame.regions = ⟨0, mode.returnSize, .returnAddress⟩ :: made ∧
    List.Forall₂ (fun instruction region => instruction.Makes region ∧
        stackOffsetAt? view mode defaultWalkBudget entry instruction.next = some region.offset)
      (prologue.filter fun instruction => instruction.pointerSetup?.isNone) made
  pointer : ∀ pointer, frame.pointer = some pointer → ∃ instruction ∈ prologue,
    view.decodeAt instruction.address mode = .ok instruction ∧
      instruction.CopiesStackPointer pointer.register ∧
      stackOffsetAt? view mode defaultWalkBudget entry instruction.address = some pointer.offset

namespace Tracked
variable {view : View} {mode : Mode} {entry : Address} {prologue : List Instruction} {frame : Frame}

theorem atEntry (view : View) (mode : Mode) (entry : Address) :
    Tracked view mode entry [] (.atEntry mode entry) where
  entry_eq := rfl
  path := .start
  offset := rfl
  regions := ⟨[], rfl, .nil⟩
  pointer := by
    intro pointer found
    cases found

theorem offset_at_end (tracked : Tracked view mode entry prologue frame)
    (short : prologue.length ≤ defaultWalkBudget) :
    stackOffsetAt? view mode defaultWalkBudget entry frame.prologueEnd = some frame.stackOffset := by
  rw [tracked.path.falls.stackOffsetAt?_eq short, tracked.offset]

/-- One more step of the prologue keeps frame and walk in agreement. -/
theorem extend (tracked : Tracked view mode entry prologue frame)
    (short : prologue.length < defaultWalkBudget) {step : PrologueStep} {next : Address}
    (found : prologueAt? view mode entry frame.prologueEnd = some (step, next)) :
    ∃ instruction, Tracked view mode entry (prologue ++ [instruction]) (frame.extend step next) := by
  obtain ⟨instruction, untargeted, decoded, recognised, rfl⟩ := prologueAt?_eq_some found
  have path : Prologue view mode entry (prologue ++ [instruction]) instruction.next :=
    .step tracked.path untargeted decoded (by simp [recognised])
  have moved : (prologue ++ [instruction]).foldl Instruction.moveStack 0 =
      wrap32 (frame.stackOffset + instruction.stackDelta?.getD 0) := by
    rw [List.foldl_append, tracked.offset]
    rfl
  refine ⟨instruction, ?_⟩
  cases step with
  | setPointer register =>
    have setup := Instruction.prologueStep?_eq_setPointer.mp recognised
    have copies := Instruction.copies_of_pointerSetup? setup
    have placed := View.address_of_decodeAt decoded
    exact {
      entry_eq := tracked.entry_eq
      path := path
      offset := by
        rw [moved, Instruction.stackDelta?_of_copies copies, Option.getD_none, Int.add_zero,
          ← tracked.offset, wrap32_moveStack, tracked.offset]
        rfl
      regions := by
        obtain ⟨made, regions, all⟩ := tracked.regions
        refine ⟨made, regions, ?_⟩
        simpa [List.filter_append, setup] using all
      pointer := by
        rintro pointer ⟨⟩
        refine ⟨instruction, by simp, placed ▸ decoded, copies, ?_⟩
        rw [placed]
        exact tracked.offset_at_end short.le }
  | reserve role delta =>
    obtain ⟨setup, known, moves, negative⟩ := Instruction.prologueStep?_eq_reserve recognised
    have lowered : (prologue ++ [instruction]).foldl Instruction.moveStack 0 =
        wrap32 (frame.stackOffset + delta) := by
      rw [moved, moves, Option.getD_some]
    exact {
      entry_eq := tracked.entry_eq
      path := path
      offset := lowered
      regions := by
        obtain ⟨made, regions, all⟩ := tracked.regions
        refine ⟨made ++ [⟨wrap32 (frame.stackOffset + delta), delta.natAbs, role⟩], ?_, ?_⟩
        · change frame.regions ++ _ = _
          rw [regions]
          rfl
        · have walked := path.falls.stackOffsetAt?_eq (by simpa using Nat.succ_le_of_lt short)
          rw [lowered] at walked
          rw [List.filter_append]
          refine List.rel_append all ?_
          simpa [setup] using ⟨⟨known, delta, negative, moves, rfl⟩, walked⟩
      pointer := by
        intro pointer held
        obtain ⟨other, member, holds⟩ := tracked.pointer pointer held
        exact ⟨other, by simp [member], holds⟩ }

theorem follow {budget : Nat} {final : Frame} (tracked : Tracked view mode entry prologue frame)
    (short : prologue.length + budget ≤ defaultWalkBudget)
    (followed : frame.follow view mode budget = .ok final) :
    ∃ whole, whole.length ≤ defaultWalkBudget ∧ Tracked view mode entry whole final ∧
      prologueAt? view mode entry final.prologueEnd = none := by
  induction budget generalizing prologue frame with
  | zero =>
    rw [Frame.follow, tracked.entry_eq] at followed
    cases found : prologueAt? view mode entry frame.prologueEnd with
    | some step => simp [found] at followed
    | none =>
      simp only [found, Except.ok.injEq] at followed
      subst followed
      exact ⟨prologue, short, tracked, found⟩
  | succ budget ih =>
    rw [Frame.follow, tracked.entry_eq] at followed
    cases found : prologueAt? view mode entry frame.prologueEnd with
    | none =>
      simp only [found, Except.ok.injEq] at followed
      subst followed
      exact ⟨prologue, by omega, tracked, found⟩
    | some step =>
      simp only [found] at followed
      obtain ⟨instruction, further⟩ := tracked.extend (by omega) found
      refine ih further ?_ followed
      rw [List.length_append, List.length_singleton]
      omega

end Tracked

/-- A walk from the entry finds the stack pointer of the frame at the end of the
prologue, the offset of each region after the instruction that makes it, and
the offset of the frame pointer where the stack pointer is copied to it. -/
theorem stackOffsetAt?_of_buildFrame {view : View} {mode : Mode} {entry : Address} {frame : Frame}
    (built : buildFrame view mode entry = .ok frame) :
    stackOffsetAt? view mode defaultWalkBudget entry frame.prologueEnd = some frame.stackOffset ∧
      ∃ prologue, Prologue view mode entry prologue frame.prologueEnd ∧
        prologueAt? view mode entry frame.prologueEnd = none ∧
        (∃ made, frame.regions = ⟨0, mode.returnSize, .returnAddress⟩ :: made ∧
          List.Forall₂ (fun instruction region => instruction.Makes region ∧
              stackOffsetAt? view mode defaultWalkBudget entry instruction.next =
                some region.offset)
            (prologue.filter fun instruction => instruction.pointerSetup?.isNone) made) ∧
        ∀ pointer, frame.pointer = some pointer → ∃ instruction ∈ prologue,
          view.decodeAt instruction.address mode = .ok instruction ∧
            instruction.CopiesStackPointer pointer.register ∧
            stackOffsetAt? view mode defaultWalkBudget entry instruction.address =
              some pointer.offset := by
  have followed : (Frame.atEntry mode entry).follow view mode prologueBudget = .ok frame := by
    unfold buildFrame at built
    split at built
    · cases built
    · exact built
  obtain ⟨prologue, short, tracked, ended⟩ :=
    (Tracked.atEntry view mode entry).follow (by decide) followed
  exact ⟨tracked.offset_at_end short, prologue, tracked.path, ended, tracked.regions,
    tracked.pointer⟩

/-- A prologue that saves a register, sets up the frame pointer between two moves
of the stack pointer, and ends at a return. -/
theorem stackOffsetAt?_of_buildFrame_pointer :
    let view := (Database.ofMemory (.ofImage #[0x01, 0x00, 0x6D, 0xF6, 0x0F, 0xF6, 0x7A, 0x37,
      0x00, 0x00, 0x00, 0x08, 0x54, 0x70] 0x100)).view
    let mode : Mode := ⟨.h8300h, .advanced⟩
    let frame : Frame := ⟨0x100, 4, [⟨0, 4, .returnAddress⟩, ⟨-4, 4, .savedRegister⟩,
      ⟨-12, 8, .localVariable⟩], some ⟨.general .whole 6, -4⟩, -12, 0x10C⟩
    buildFrame view mode 0x100 = .ok frame ∧
      stackOffsetAt? view mode defaultWalkBudget 0x100 0x10C = some (-12) ∧
      ∃ instruction : Instruction, instruction.CopiesStackPointer (.general .whole 6) ∧
        stackOffsetAt? view mode defaultWalkBudget 0x100 instruction.address = some (-4) := by
  intro view mode frame
  have built : buildFrame view mode 0x100 = .ok frame := by decide +kernel
  obtain ⟨ended, prologue, -, -, -, pointers⟩ := stackOffsetAt?_of_buildFrame built
  obtain ⟨instruction, -, -, copies, walked⟩ := pointers ⟨.general .whole 6, -4⟩ rfl
  exact ⟨built, ended, instruction, copies, walked⟩

end H8
