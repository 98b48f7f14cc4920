import H8.Proofs.Frame.Tracking
import Mathlib.Data.ENat.Lattice
import Mathlib.Order.CompletePartialOrder

/-! How far a prologue reaches decides what becomes of its frame.

From the entry of a function there is at most one run of prologue instructions
of each length, and every part of a run that starts at the entry is one. So the
runs have a greatest length, or there is no end to them. Recovering a frame
fails where there is no instruction in the run and where there are too many;
otherwise the longest run determines all of the frame.
-/

set_option autoImplicit false

namespace H8

namespace Instruction
variable {instruction : Instruction}

/-- The instruction makes room on the stack in the way of prologues, to save a
register or for local variables. -/
inductive Reserves (instruction : Instruction) : Role → Prop where
  | push (mnemonic : instruction.mnemonic = .push) : Reserves instruction .savedRegister
  | list (mnemonic : instruction.mnemonic = .stm) : Reserves instruction .savedRegister
  | store {source base : Register} (mnemonic : instruction.mnemonic = .mov)
      (operands : instruction.operands = [.register source, .preDecrement base])
      (pointer : base.isStackPointer = true) : Reserves instruction .savedRegister
  | constant (mnemonic : instruction.mnemonic ∈ [.add, .adds, .sub, .subs, .dec]) :
      Reserves instruction .localVariable

def InPrologue (instruction : Instruction) : Prop :=
  (∃ register, instruction.CopiesStackPointer register ∧ register.isStackPointer = false) ∨
    (∃ role, instruction.Reserves role) ∧ ∃ delta < 0, instruction.stackDelta? = some delta

theorem pointerSetup?_eq_some_iff {register : Register} : instruction.pointerSetup? = some register ↔
    instruction.CopiesStackPointer register ∧ register.isStackPointer = false := by
  constructor
  · intro copies
    refine ⟨copies_of_pointerSetup? copies, ?_⟩
    unfold pointerSetup? at copies
    split at copies
    · simp only [Bool.and_eq_true, Option.ite_none_right_eq_some, Option.some.injEq] at copies
      obtain ⟨⟨-, other⟩, rfl⟩ := copies
      simpa using other
    · cases copies
  · rintro ⟨⟨mnemonic, source, pointer, operands⟩, other⟩
    simp [pointerSetup?, mnemonic, operands, pointer, other]

theorem savesRegister_iff : instruction.savesRegister = true ↔ instruction.Reserves .savedRegister := by
  constructor
  · intro saves
    unfold savesRegister at saves
    split at saves
    · next mnemonic => exact .push mnemonic
    · next mnemonic => exact .list mnemonic
    · next mnemonic operands => exact .store mnemonic operands saves
    · cases saves
  · intro reserves
    cases reserves with
    | push mnemonic | list mnemonic => simp [savesRegister, mnemonic]
    | store mnemonic operands pointer => simp [savesRegister, mnemonic, operands, pointer]

theorem prologueRole?_eq_some_iff {role : Role} :
    instruction.prologueRole? = some role ↔ instruction.Reserves role := by
  unfold prologueRole?
  by_cases saves : instruction.savesRegister = true
  · have reserved := savesRegister_iff.mp saves
    rw [if_pos saves]
    constructor
    · rintro ⟨⟩
      exact reserved
    · intro reserves
      cases reserves with
      | push _ | list _ | store _ _ _ => rfl
      | constant mnemonic =>
        rcases mnemonic_of_savesRegister saves with same | same | same
        all_goals simp [same] at mnemonic
  · rw [if_neg saves]
    constructor
    · intro found
      split at found
      case h_6 => cases found
      all_goals
        next mnemonic =>
          cases found
          exact .constant (by simp [mnemonic])
    · intro reserves
      cases reserves with
      | push mnemonic => exact absurd (savesRegister_iff.mpr (.push mnemonic)) saves
      | list mnemonic => exact absurd (savesRegister_iff.mpr (.list mnemonic)) saves
      | store mnemonic operands pointer =>
        exact absurd (savesRegister_iff.mpr (.store mnemonic operands pointer)) saves
      | constant mnemonic =>
        simp only [List.mem_cons, List.not_mem_nil, or_false] at mnemonic
        rcases mnemonic with same | same | same | same | same
        all_goals simp [same]

theorem isSome_prologueStep?_iff :
    instruction.prologueStep?.isSome = true ↔ instruction.InPrologue := by
  constructor
  · intro recognised
    obtain ⟨step, recognised⟩ := Option.isSome_iff_exists.mp recognised
    cases step with
    | setPointer register =>
      have setup := prologueStep?_eq_setPointer.mp recognised
      exact .inl ⟨register, pointerSetup?_eq_some_iff.mp setup⟩
    | reserve role delta =>
      obtain ⟨-, known, moves, negative⟩ := prologueStep?_eq_reserve recognised
      exact .inr ⟨⟨role, prologueRole?_eq_some_iff.mp known⟩, delta, negative, moves⟩
  · rintro (⟨register, copies⟩ | ⟨⟨role, reserves⟩, delta, negative, moves⟩)
    · rw [prologueStep?_eq_setPointer.mpr (pointerSetup?_eq_some_iff.mpr copies)]
      rfl
    · unfold prologueStep?
      split
      · rfl
      · rw [prologueRole?_eq_some_iff.mpr reserves, moves]
        simp [negative]

end Instruction

def withOffsets : Int → List Instruction → List (Int × Instruction)
  | _, [] => []
  | offset, instruction :: rest =>
    (offset, instruction) :: withOffsets (instruction.moveStack offset) rest

theorem withOffsets_concat (offset : Int) (run : List Instruction) (instruction : Instruction) :
    withOffsets offset (run ++ [instruction]) =
      withOffsets offset run ++ [(run.foldl Instruction.moveStack offset, instruction)] := by
  induction run generalizing offset with
  | nil => rfl
  | cons first rest ih => simp [withOffsets, ih]

def Instruction.region? (offset : Int) (instruction : Instruction) : Option Region :=
  instruction.stackDelta?.map fun delta =>
    ⟨wrap32 (offset + delta), delta.natAbs,
      if instruction.savesRegister then .savedRegister else .localVariable⟩

theorem Instruction.role_of_reserves {instruction : Instruction} {role : Role}
    (reserves : instruction.Reserves role) :
    (if instruction.savesRegister then Role.savedRegister else .localVariable) = role := by
  have known := prologueRole?_eq_some_iff.mpr reserves
  unfold prologueRole? at known
  split at known
  · next saves => rw [if_pos saves, Option.some.inj known]
  · next keeps =>
    rw [if_neg keeps]
    split at known
    case h_6 => cases known
    all_goals exact Option.some.inj known

/-- The frame that a run of prologue instructions up to an address sets up: a region
for each instruction that moves the stack pointer, and as the frame pointer the
last copy of it. -/
def Frame.ofRun (mode : Mode) (entry : Address) (run : List Instruction) (stop : Address) : Frame where
  entry := entry
  returnSize := mode.returnSize
  regions := ⟨0, mode.returnSize, .returnAddress⟩ ::
    (withOffsets 0 run).filterMap fun (offset, instruction) => instruction.region? offset
  pointer := ((withOffsets 0 run).filterMap fun (offset, instruction) =>
    instruction.pointerSetup?.map fun register => ⟨register, offset⟩).getLast?
  stackOffset := run.foldl Instruction.moveStack 0
  prologueEnd := stop

theorem Frame.ofRun_concat (mode : Mode) (entry : Address) (run : List Instruction) (stop : Address)
    {instruction : Instruction} {step : PrologueStep} (recognised : instruction.prologueStep? = some step)
    (next : Address) : Frame.ofRun mode entry (run ++ [instruction]) next =
      (Frame.ofRun mode entry run stop).extend step next := by
  cases step with
  | setPointer register =>
    have setup := Instruction.prologueStep?_eq_setPointer.mp recognised
    have still := Instruction.stackDelta?_of_copies (Instruction.copies_of_pointerSetup? setup)
    simp [ofRun, extend, withOffsets_concat, List.filterMap_append, Instruction.region?, setup, still,
      Instruction.moveStack, wrap32_moveStack]
  | reserve role delta =>
    obtain ⟨setup, known, moves, negative⟩ := Instruction.prologueStep?_eq_reserve recognised
    have named := Instruction.role_of_reserves (Instruction.prologueRole?_eq_some_iff.mp known)
    simp [ofRun, extend, withOffsets_concat, List.filterMap_append, Instruction.region?, setup, moves,
      Instruction.moveStack, named]

namespace Falls
variable {view : View} {mode : Mode} {start stop other : Address} {first second : List Instruction}

theorem of_append (falls : Falls view mode start (first ++ second) stop) :
    ∃ middle, Falls view mode start first middle ∧ Falls view mode middle second stop := by
  induction first generalizing start with
  | nil => exact ⟨start, .nil start, falls⟩
  | cons instruction rest ih =>
    cases falls with
    | cons decoded flows later =>
      obtain ⟨middle, early, late⟩ := ih later
      exact ⟨middle, .cons decoded flows early, late⟩

theorem deterministic (left : Falls view mode start first stop)
    (right : Falls view mode start second other) (lengths : first.length = second.length) :
    first = second ∧ stop = other := by
  induction left generalizing second other with
  | nil address =>
    cases right with
    | nil => exact ⟨rfl, rfl⟩
    | cons => cases lengths
  | cons decoded _ _ ih =>
    cases right with
    | nil => cases lengths
    | cons alsoDecoded _ later =>
      obtain rfl := Except.ok.inj (decoded.symm.trans alsoDecoded)
      obtain ⟨rfl, rfl⟩ := ih later (Nat.succ.inj lengths)
      exact ⟨rfl, rfl⟩

end Falls

/-- Consecutive instructions of a prologue from the entry of a function up to an
address. Control arrives from elsewhere at most at the entry. -/
structure PrologueRun (view : View) (mode : Mode) (entry : Address) (run : List Instruction)
    (stop : Address) : Prop where
  straight : Falls view mode entry run stop
  belongs : ∀ instruction ∈ run, instruction.InPrologue
  untargeted : ∀ instruction ∈ run,
    instruction.address = entry ∨ view.isCodeTarget instruction.address = false

/-- The length of the longest run, which may have no bound. -/
noncomputable def prologueExtent (view : View) (mode : Mode) (entry : Address) : ℕ∞ :=
  ⨆ (run : List Instruction) (_ : ∃ stop, PrologueRun view mode entry run stop), (run.length : ℕ∞)

namespace PrologueRun
variable {view : View} {mode : Mode} {entry stop other : Address} {run whole : List Instruction}
  {instruction : Instruction}

theorem nil (view : View) (mode : Mode) (entry : Address) : PrologueRun view mode entry [] entry :=
  ⟨.nil entry, by simp, by simp⟩

theorem concat_iff : PrologueRun view mode entry (run ++ [instruction]) other ↔
    ∃ stop, PrologueRun view mode entry run stop ∧
      (stop = entry ∨ view.isCodeTarget stop = false) ∧
      view.decodeAt stop mode = .ok instruction ∧ instruction.InPrologue ∧
      instruction.next = other := by
  constructor
  · rintro ⟨straight, belongs, untargeted⟩
    obtain ⟨stop, early, late⟩ := straight.of_append
    cases late with
    | cons decoded flows rest =>
      cases rest
      have placed := View.address_of_decodeAt decoded
      refine ⟨stop, ⟨early, ?_, ?_⟩, placed ▸ untargeted instruction (by simp), decoded,
        belongs instruction (by simp), rfl⟩
      · exact fun earlier member => belongs earlier (by simp [member])
      · exact fun earlier member => untargeted earlier (by simp [member])
  · rintro ⟨stop, earlier, reached, decoded, last, rfl⟩
    have flows := Instruction.fallsThrough_of_edges
      (Instruction.edges_of_prologueStep? (Instruction.isSome_prologueStep?_iff.mpr last)) view mode
    have placed := View.address_of_decodeAt decoded
    refine ⟨earlier.straight.append (.cons decoded flows (.nil _)), ?_, ?_⟩
    · intro member inside
      rcases List.mem_append.mp inside with before | here
      · exact earlier.belongs member before
      · exact List.mem_singleton.mp here ▸ last
    · intro member inside
      rcases List.mem_append.mp inside with before | here
      · exact earlier.untargeted member before
      · rw [List.mem_singleton.mp here, placed]
        exact reached

theorem take (path : PrologueRun view mode entry run stop) (count : Nat) :
    ∃ middle, PrologueRun view mode entry (run.take count) middle := by
  have straight := path.straight
  rw [← List.take_append_drop count run] at straight
  obtain ⟨middle, early, -⟩ := straight.of_append
  refine ⟨middle, early, ?_, ?_⟩
  · exact fun instruction member => path.belongs instruction (List.mem_of_mem_take member)
  · exact fun instruction member => path.untargeted instruction (List.mem_of_mem_take member)

theorem length_le (path : PrologueRun view mode entry run stop)
    (ended : ∀ instruction next, ¬ PrologueRun view mode entry (run ++ [instruction]) next)
    (longer : PrologueRun view mode entry whole other) : whole.length ≤ run.length := by
  by_contra less
  have inside : run.length < whole.length := Nat.lt_of_not_le less
  obtain ⟨middle, cut⟩ := longer.take (run.length + 1)
  rw [List.take_succ_eq_append_getElem inside] at cut
  obtain ⟨before, earlier, -⟩ := concat_iff.mp cut
  have same : whole.take run.length = run :=
    (earlier.straight.deterministic path.straight (by simp [inside.le])).1
  rw [same] at cut
  exact ended _ _ cut

theorem concat_of_prologueAt? (path : PrologueRun view mode entry run stop)
    {step : PrologueStep × Address} (found : prologueAt? view mode entry stop = some step) :
    ∃ instruction, PrologueRun view mode entry (run ++ [instruction]) step.2 ∧
      instruction.prologueStep? = some step.1 := by
  obtain ⟨instruction, reached, decoded, recognised, after⟩ := prologueAt?_eq_some found
  have belongs := Instruction.isSome_prologueStep?_iff.mp (Option.isSome_of_eq_some recognised)
  exact ⟨instruction, concat_iff.mpr ⟨stop, path, reached, decoded, belongs, after⟩, recognised⟩

theorem not_concat (path : PrologueRun view mode entry run stop)
    (ended : prologueAt? view mode entry stop = none) (instruction : Instruction) (next : Address) :
    ¬ PrologueRun view mode entry (run ++ [instruction]) next := by
  intro longer
  obtain ⟨last, earlier, reached, decoded, belongs, -⟩ := concat_iff.mp longer
  obtain ⟨-, rfl⟩ := earlier.straight.deterministic path.straight rfl
  obtain ⟨step, recognised⟩ :=
    Option.isSome_iff_exists.mp (Instruction.isSome_prologueStep?_iff.mpr belongs)
  unfold prologueAt? at ended
  rw [if_neg] at ended
  · simp [decoded, recognised] at ended
  · rcases reached with same | plain
    · simp [same]
    · simp [plain]

end PrologueRun

/-- What may come of following a prologue that has a limit: a run that is longer, or
the longest run and its frame. -/
inductive Followed (view : View) (mode : Mode) (entry : Address) (limit : Nat) :
    Except FrameFailure Frame → Prop where
  | exceeded {run : List Instruction} {stop : Address} (path : PrologueRun view mode entry run stop)
      (long : run.length = limit + 1) : Followed view mode entry limit (.error .budgetExceeded)
  | ended {run : List Instruction} {stop : Address} (path : PrologueRun view mode entry run stop)
      (short : run.length ≤ limit)
      (last : ∀ instruction next, ¬ PrologueRun view mode entry (run ++ [instruction]) next) :
      Followed view mode entry limit (.ok (.ofRun mode entry run stop))

section
variable {view : View} {mode : Mode} {entry stop : Address} {run : List Instruction}

theorem PrologueRun.follow (path : PrologueRun view mode entry run stop) {budget limit : Nat}
    (spent : run.length + budget = limit) :
    Followed view mode entry limit ((Frame.ofRun mode entry run stop).follow view mode budget) := by
  induction budget generalizing run stop with
  | zero =>
    cases found : prologueAt? view mode entry stop with
    | none =>
      simp only [Frame.follow, Frame.ofRun, found]
      exact .ended path spent.le (path.not_concat found)
    | some step =>
      -- The budget is used up and the prologue goes on.
      obtain ⟨instruction, longer, -⟩ := path.concat_of_prologueAt? found
      simp only [Frame.follow, Frame.ofRun, found]
      exact .exceeded longer (by simp [← spent])
  | succ budget ih =>
    cases found : prologueAt? view mode entry stop with
    | none =>
      simp only [Frame.follow, Frame.ofRun, found]
      exact .ended path (by omega) (path.not_concat found)
    | some step =>
      obtain ⟨instruction, longer, recognised⟩ := path.concat_of_prologueAt? found
      have further := ih longer (by simp [← spent, Nat.add_assoc, Nat.add_comm 1])
      rw [Frame.ofRun_concat mode entry run stop recognised] at further
      simpa only [Frame.follow, Frame.ofRun, found] using further

theorem followed_of_prologueAt? {first : PrologueStep × Address}
    (found : prologueAt? view mode entry entry = some first) :
    Followed view mode entry prologueBudget (buildFrame view mode entry) := by
  simp only [buildFrame, found]
  exact (PrologueRun.nil view mode entry).follow (Nat.zero_add _)

theorem le_prologueExtent_iff {count : Nat} : count ≤ prologueExtent view mode entry ↔
    ∃ run stop, PrologueRun view mode entry run stop ∧ run.length = count := by
  constructor
  · intro reaches
    -- A longer run could be cut to this length, so all runs would be shorter.
    by_contra none
    have short : ∀ run, (∃ stop, PrologueRun view mode entry run stop) → run.length < count := by
      rintro run ⟨stop, path⟩
      by_contra long
      obtain ⟨middle, cut⟩ := path.take count
      exact none ⟨run.take count, middle, cut, by simpa using long⟩
    have positive := short [] ⟨entry, .nil view mode entry⟩
    have bounded : prologueExtent view mode entry ≤ (count - 1 : Nat) := by
      apply iSup₂_le
      intro run path
      exact Nat.cast_le.mpr (Nat.le_sub_one_of_lt (short run path))
    have impossible := Nat.cast_le.mp (reaches.trans bounded)
    omega
  · rintro ⟨run, stop, path, rfl⟩
    exact le_iSup₂_of_le run ⟨stop, path⟩ le_rfl

theorem prologueExtent_eq (path : PrologueRun view mode entry run stop)
    (last : ∀ instruction next, ¬ PrologueRun view mode entry (run ++ [instruction]) next) :
    prologueExtent view mode entry = run.length := by
  apply le_antisymm
  · apply iSup₂_le
    rintro longer ⟨other, reaches⟩
    exact Nat.cast_le.mpr (path.length_le last reaches)
  · exact le_prologueExtent_iff.mpr ⟨run, stop, path, rfl⟩

/-- The three outcomes, each with what it says about the runs. -/
theorem buildFrame_cases (view : View) (mode : Mode) (entry : Address) :
    (buildFrame view mode entry = .error .noPrologue ∧ prologueExtent view mode entry = 0) ∨
      (buildFrame view mode entry = .error .budgetExceeded ∧
        32 < prologueExtent view mode entry) ∨
      ∃ run stop, PrologueRun view mode entry run stop ∧
        prologueExtent view mode entry = run.length ∧ 0 < run.length ∧ run.length ≤ 32 ∧
        buildFrame view mode entry = .ok (.ofRun mode entry run stop) := by
  have empty := PrologueRun.nil view mode entry
  cases found : prologueAt? view mode entry entry with
  | none =>
    refine .inl ⟨by simp [buildFrame, found], ?_⟩
    exact prologueExtent_eq empty (empty.not_concat found)
  | some first =>
    have followed := followed_of_prologueAt? found
    generalize buildFrame view mode entry = outcome at followed
    cases followed with
    | @exceeded run stop path long =>
      have reaches : ((33 : Nat) : ℕ∞) ≤ prologueExtent view mode entry :=
        le_prologueExtent_iff.mpr ⟨run, stop, path, long⟩
      exact .inr (.inl ⟨rfl, lt_of_lt_of_le (by decide) reaches⟩)
    | @ended run stop path short last =>
      -- The empty run is not the longest, since a first step was seen.
      have positive : 0 < run.length := by
        obtain ⟨instruction, longer, -⟩ := empty.concat_of_prologueAt? found
        exact path.length_le last longer
      exact .inr (.inr ⟨run, stop, path, prologueExtent_eq path last, positive, short, rfl⟩)

end

/-- Recovering a frame fails for want of a prologue if there is no run of prologue
instructions, and for its budget if there is one of more than 32. Otherwise the
longest run gives the frame. -/
theorem buildFrame_decided_by_extent (view : View) (mode : Mode) (entry : Address) :
    (buildFrame view mode entry = .error .noPrologue ↔ prologueExtent view mode entry = 0) ∧
      (buildFrame view mode entry = .error .budgetExceeded ↔
        32 < prologueExtent view mode entry) ∧
      (0 < prologueExtent view mode entry → prologueExtent view mode entry ≤ 32 →
        ∃ run stop, PrologueRun view mode entry run stop ∧
          run.length = prologueExtent view mode entry ∧
          buildFrame view mode entry = .ok (.ofRun mode entry run stop)) := by
  rcases buildFrame_cases view mode entry with
    ⟨outcome, extent⟩ | ⟨outcome, extent⟩ | ⟨run, stop, path, extent, positive, short, outcome⟩
  · simp [outcome, extent]
  · have positive : prologueExtent view mode entry ≠ 0 := (pos_of_gt extent).ne'
    simp [outcome, extent, positive, extent.not_ge]
  · have bounded : (run.length : ℕ∞) ≤ 32 := Nat.cast_le.mpr short
    have some : (run.length : ℕ∞) ≠ 0 := Nat.cast_ne_zero.mpr positive.ne'
    rw [outcome, extent]
    simp only [reduceCtorEq, some, bounded.not_gt, iff_self, true_and]
    exact fun _ _ => ⟨run, stop, path, rfl, rfl⟩

/-- The stack pointer is copied twice and lowered once. The last instruction would
lower it again, but something jumps there. -/
theorem buildFrame_decided_by_extent_join :
    let memory : Memory := .ofImage #[0x0F, 0xF6, 0x6D, 0xF5, 0x0F, 0xF4, 0x1B, 0x97] 0x100
    let view := ((Database.ofMemory memory).insertReference ⟨0x200, some 0x106, .code⟩).view
    let mode : Mode := ⟨.h8300h, .advanced⟩
    let frame : Frame := ⟨0x100, 4, [⟨0, 4, .returnAddress⟩, ⟨-2, 2, .savedRegister⟩],
      some ⟨.general .whole 4, -2⟩, -2, 0x106⟩
    0 < prologueExtent view mode 0x100 ∧ prologueExtent view mode 0x100 ≤ 32 ∧
      ∃ run stop, PrologueRun view mode 0x100 run stop ∧
        run.length = prologueExtent view mode 0x100 ∧ Frame.ofRun mode 0x100 run stop = frame := by
  intro memory view mode frame
  have built : buildFrame view mode 0x100 = .ok frame := by decide +kernel
  obtain ⟨missing, exceeded, longest⟩ := buildFrame_decided_by_extent view mode 0x100
  rw [built] at missing exceeded longest
  have positive : 0 < prologueExtent view mode 0x100 :=
    pos_of_ne_zero fun zero => nomatch missing.mpr zero
  have bounded : prologueExtent view mode 0x100 ≤ 32 :=
    le_of_not_gt fun long => nomatch exceeded.mpr long
  obtain ⟨run, stop, path, length, same⟩ := longest positive bounded
  exact ⟨positive, bounded, run, stop, path, length, (Except.ok.inj same).symm⟩

end H8
