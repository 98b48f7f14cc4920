import H8.Frame.Prologue

/-! What a frame depends on.

A prologue is read from the bytes of its instructions and ends where control
can arrive from elsewhere. Further targets can end it earlier, but its first
instruction is the function's own, so a function that has a frame keeps one.
-/

set_option autoImplicit false

namespace H8

structure View.Retargets (view later : View) : Prop where
  decodeAt : later.decodeAt = view.decodeAt
  targets : ∀ address, view.isCodeTarget address = true → later.isCodeTarget address = true

theorem View.Retargets.refl (view : View) : view.Retargets view := ⟨rfl, fun _ => id⟩

theorem View.Retargets.trans {first second third : View} (early : first.Retargets second)
    (late : second.Retargets third) : first.Retargets third where
  decodeAt := late.decodeAt.trans early.decodeAt
  targets address known := late.targets address (early.targets address known)

section
variable {view later : View} {mode : Mode} {entry address : Address}

theorem prologueAt?_congr (decodes : later.decodeAt = view.decodeAt)
    (targets : later.isCodeTarget = view.isCodeTarget) :
    prologueAt? later mode entry address = prologueAt? view mode entry address := by
  unfold prologueAt?
  rw [decodes, targets]

theorem Frame.follow_congr (decodes : later.decodeAt = view.decodeAt)
    (targets : later.isCodeTarget = view.isCodeTarget) (budget : Nat) (frame : Frame) :
    frame.follow later mode budget = frame.follow view mode budget := by
  induction budget generalizing frame with
  | zero => simp only [follow, prologueAt?_congr decodes targets]
  | succ budget ih => simp only [follow, prologueAt?_congr decodes targets, ih]

/-- Neither known instructions in front nor frames nor names matter. -/
theorem buildFrame_congr (decodes : later.decodeAt = view.decodeAt)
    (targets : later.isCodeTarget = view.isCodeTarget) :
    buildFrame later mode entry = buildFrame view mode entry := by
  unfold buildFrame
  rw [prologueAt?_congr decodes targets, Frame.follow_congr decodes targets]

theorem Frame.entry_extend (frame : Frame) (step : PrologueStep) (next : Address) :
    (frame.extend step next).entry = frame.entry := by
  cases step <;> rfl

theorem Frame.follow_keeps {budget : Nat} {frame final : Frame} (invariant : Frame → Prop)
    (kept : ∀ {frame : Frame} {step : PrologueStep} {next : Address}, invariant frame →
      prologueAt? view mode frame.entry frame.prologueEnd = some (step, next) →
      invariant (frame.extend step next))
    (start : invariant frame) (followed : frame.follow view mode budget = .ok final) :
    invariant final := by
  induction budget generalizing frame with
  | zero =>
    unfold follow at followed
    split at followed
    · cases followed
    · exact Except.ok.inj followed ▸ start
  | succ budget ih =>
    unfold follow at followed
    split at followed
    · next found => exact ih (kept start found) followed
    · exact Except.ok.inj followed ▸ start

theorem Frame.entry_follow {budget : Nat} {frame final : Frame}
    (followed : frame.follow view mode budget = .ok final) : final.entry = frame.entry :=
  follow_keeps (fun later => later.entry = frame.entry)
    (fun same _ => (entry_extend _ _ _).trans same) rfl followed

theorem follow_of_buildFrame {frame : Frame} (built : buildFrame view mode entry = .ok frame) :
    (Frame.atEntry mode entry).follow view mode prologueBudget = .ok frame := by
  unfold buildFrame at built
  split at built
  · cases built
  · exact built

theorem entry_of_buildFrame {frame : Frame} (built : buildFrame view mode entry = .ok frame) :
    frame.entry = entry :=
  Frame.entry_follow (follow_of_buildFrame built)

theorem View.Retargets.prologueAt? {step : PrologueStep × Address} (retargets : view.Retargets later)
    (found : prologueAt? later mode entry address = some step) :
    H8.prologueAt? view mode entry address = some step := by
  unfold H8.prologueAt? at found ⊢
  rw [retargets.decodeAt] at found
  split at found
  · cases found
  · next reached =>
    rw [if_neg, found]
    intro earlier
    simp only [Bool.and_eq_true] at earlier reached
    exact reached ⟨earlier.1, retargets.targets address earlier.2⟩

theorem View.Retargets.follow {budget : Nat} {frame final : Frame} (retargets : view.Retargets later)
    (followed : frame.follow view mode budget = .ok final) :
    ∃ shorter, frame.follow later mode budget = .ok shorter := by
  -- The later walk stops first or takes the same step.
  induction budget generalizing frame with
  | zero =>
    unfold Frame.follow at followed ⊢
    cases found : H8.prologueAt? later mode frame.entry frame.prologueEnd with
    | none => exact ⟨frame, rfl⟩
    | some step => simp [retargets.prologueAt? found] at followed
  | succ budget ih =>
    unfold Frame.follow at followed ⊢
    cases found : H8.prologueAt? later mode frame.entry frame.prologueEnd with
    | none => exact ⟨frame, rfl⟩
    | some step =>
      simp only [retargets.prologueAt? found] at followed
      exact ih followed

/-- More targets shorten a prologue and never undo it. -/
theorem View.Retargets.buildFrame {frame : Frame} (retargets : view.Retargets later)
    (built : buildFrame view mode entry = .ok frame) :
    ∃ shorter, H8.buildFrame later mode entry = .ok shorter := by
  -- The entry may be a target, so the first step is seen in both views.
  have first : H8.prologueAt? later mode entry entry = H8.prologueAt? view mode entry entry := by
    unfold H8.prologueAt?
    simp [retargets.decodeAt]
  obtain ⟨shorter, followed⟩ := retargets.follow (follow_of_buildFrame built)
  unfold H8.buildFrame at built ⊢
  rw [first]
  split at built
  · cases built
  · exact ⟨shorter, followed⟩

end

end H8
