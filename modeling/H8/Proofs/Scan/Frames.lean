import H8.Proofs.Frame.Targets
import H8.Proofs.Scan.Consistency
import Mathlib.Data.List.Basic

/-! The frames that scans leave.

A scan recovers the frame of every known function from what it has traced.
Where a function has no prologue, an older frame would stay. There is none in a
database that was only scanned in one mode, for what was a prologue before is
one still.
-/

set_option autoImplicit false

namespace H8

namespace Database
variable {database later : Database} {mode : Mode} {entry address : Address}

theorem retargets (memories : later.memory = database.memory)
    (more : ∀ reference ∈ database.references.all, reference ∈ later.references.all) :
    database.view.Retargets later.view where
  decodeAt := by
    unfold View.decodeAt view
    rw [memories]
  targets := by
    intro address known
    obtain ⟨reference, member, leads⟩ := CrossReferences.isCodeTarget_iff.mp known
    exact CrossReferences.isCodeTarget_iff.mpr ⟨reference, more reference member, leads⟩

theorem buildFrame_of_core (same : later.core = database.core) :
    buildFrame later.view mode entry = buildFrame database.view mode entry := by
  simp only [core, Prod.mk.injEq] at same
  obtain ⟨memories, -, references⟩ := same
  apply buildFrame_congr
  · unfold View.decodeAt view
    rw [memories]
  · unfold view
    rw [references]

theorem frames_addReference (database : Database) (reference : Reference) :
    (database.addReference reference).frames = database.frames := by
  unfold addReference
  split <;> rfl

theorem frames_start (database : Database) (entries : List Address) :
    (Trace.start database entries).database.frames = database.frames :=
  foldl_keeps frames (fun (_ : Database) (entry : Address) => (rfl : (insertFunction _ entry).frames = _))
    _ database

theorem frames_labelTarget (database : Database) (target : Address × ReferenceKind) :
    (database.labelTarget target).frames = database.frames := by
  unfold labelTarget
  split <;> rfl

theorem functions_describeFunction (mode : Mode) (database : Database) (entry : Address) :
    (database.describeFunction mode entry).functions = database.functions := by
  unfold describeFunction
  dsimp only
  split <;> rfl

theorem functions_labelTarget (database : Database) (target : Address × ReferenceKind) :
    (database.labelTarget target).functions = database.functions := by
  unfold labelTarget
  split <;> rfl

theorem functions_scan (database : Database) (entries : List Address) (mode : Mode) :
    (database.scan entries mode).1.functions =
      (Trace.run mode (.start database entries)).database.functions := by
  unfold scan Trace.conclude
  dsimp only
  rw [foldl_keeps functions functions_labelTarget, foldl_keeps functions (functions_describeFunction mode)]

end Database

theorem Trace.frames_record (trace : Trace) (instruction : Instruction) (effects : Effects) :
    (trace.record instruction effects).database.frames = trace.database.frames := by
  unfold record
  dsimp only
  rw [foldl_keeps Database.frames Database.frames_addReference]
  cases effects.switch <;> rfl

section
variable {mode : Mode} {trace next : Trace} {now : List Marking}

theorem Step.frames (step : Step mode trace now next) : next.database.frames = trace.database.frames := by
  cases step with
  | seen _ _ | passed _ _ _ => rfl
  | marked _ _ unknown _ accepted =>
    rw [Trace.frames_record, Database.markHead?_eq_some unknown accepted]

theorem Step.retargets (step : Step mode trace now next) :
    trace.database.view.Retargets next.database.view := by
  cases step with
  | seen _ _ | passed _ _ _ => exact .refl _
  | @marked address rest instruction database fresh _ unknown _ accepted =>
    obtain ⟨memories, -, references⟩ := parts_of_marked unknown accepted
      (trace.take address rest fresh) (instruction.effects database.view mode)
    apply Database.retargets memories
    intro reference known
    rw [references]
    exact CrossReferences.mem_foldl_insert.mpr (.inl known)

end

namespace Database
variable {mode : Mode} {database : Database}

theorem traced (database : Database) (entries : List Address) (mode : Mode) :
    let trace := Trace.run mode (.start database entries)
    database.view.Retargets trace.database.view ∧ trace.database.frames = database.frames := by
  obtain ⟨⟨history, runs⟩, -⟩ := exists_runs_run mode (.start database entries)
  refine runs.keeps (fun _ trace => database.view.Retargets trace.database.view ∧
    trace.database.frames = database.frames) (fun kept step => ?_) [] ⟨?_, frames_start database entries⟩
  · exact ⟨kept.1.trans step.retargets, step.frames.trans kept.2⟩
  · have start := core_start database entries
    simp only [core, Prod.mk.injEq] at start
    exact retargets start.1 (start.2.2 ▸ fun _ => id)

theorem retargets_scan (database : Database) (entries : List Address) (mode : Mode) :
    database.view.Retargets (database.scan entries mode).1.view := by
  have core := core_scan database entries mode
  simp only [Database.core, Prod.mk.injEq] at core
  exact (traced database entries mode).1.trans (retargets core.1 (core.2.2 ▸ fun _ => id))

theorem get?_frames_describeFunction (database : Database) (entry address : Address) :
    (database.describeFunction mode entry).frames.get? address =
      if address = entry then
        (buildFrame database.view mode entry).toOption.or (database.frames.get? entry)
      else database.frames.get? address := by
  have named : buildFrame (database.ensureLabel entry .subroutine).view mode entry =
      buildFrame database.view mode entry := buildFrame_of_core rfl
  unfold describeFunction
  dsimp only
  rw [named]
  cases built : buildFrame database.view mode entry with
  | error failure =>
    change database.frames.get? address = _
    by_cases same : address = entry
    · rw [if_pos same, same]
      rfl
    · rw [if_neg same]
  | ok frame =>
    change (database.frames.insert frame.entry frame).get? address = _
    rw [entry_of_buildFrame built, AddressMap.get?_insert]
    rfl

theorem get?_frames_describe (entries : List Address) (database : Database) (address : Address) :
    (entries.foldl (describeFunction mode) database).frames.get? address =
      if address ∈ entries then
        (buildFrame database.view mode address).toOption.or (database.frames.get? address)
      else database.frames.get? address := by
  induction entries generalizing database with
  | nil => rfl
  | cons entry entries ih =>
    have same : buildFrame (database.describeFunction mode entry).view mode address =
        buildFrame database.view mode address :=
      buildFrame_of_core (core_describeFunction mode database entry)
    rw [List.foldl_cons, ih, same, get?_frames_describeFunction]
    by_cases here : address = entry
    · subst here
      cases (buildFrame database.view mode address).toOption <;> simp
    · simp [here]

/-- A scan leaves the frame of each function as its prologue is now, and an
older one where there is no prologue. -/
theorem get?_frames_scan (database : Database) (entries : List Address) (mode : Mode)
    (address : Address) :
    let scanned := (database.scan entries mode).1
    scanned.frames.get? address =
      if address ∈ scanned.functions.keys then
        (buildFrame scanned.view mode address).toOption.or (database.frames.get? address)
      else database.frames.get? address := by
  intro scanned
  have built : buildFrame scanned.view mode address =
      buildFrame (Trace.run mode (.start database entries)).database.view mode address :=
    buildFrame_of_core (core_scan database entries mode)
  rw [built, functions_scan]
  unfold scanned scan Trace.conclude
  dsimp only
  rw [foldl_keeps frames frames_labelTarget, get?_frames_describe, (traced database entries mode).2]

def Framed (mode : Mode) (database : Database) : Prop :=
  ∀ entry frame, database.frames.get? entry = some frame →
    ∃ current, buildFrame database.view mode entry = .ok current

theorem framed_ofMemory (mode : Mode) (memory : Memory) : (ofMemory memory).Framed mode := by
  intro entry frame found
  cases found

namespace Framed

theorem of_scan (framed : database.Framed mode) (entries : List Address) {entry : Address} {frame : Frame}
    (found : database.frames.get? entry = some frame) :
    ∃ current, buildFrame (database.scan entries mode).1.view mode entry = .ok current := by
  obtain ⟨former, built⟩ := framed entry frame found
  exact (retargets_scan database entries mode).buildFrame built

theorem scan (framed : database.Framed mode) (entries : List Address) :
    (database.scan entries mode).1.Framed mode := by
  intro entry frame found
  rw [get?_frames_scan] at found
  split at found
  · rcases Option.or_eq_some_iff.mp found with now | ⟨-, before⟩
    · cases built : buildFrame (database.scan entries mode).1.view mode entry with
      | error failure => simp [built, Except.toOption] at now
      | ok current => exact ⟨current, rfl⟩
    · exact framed.of_scan entries before
  · exact framed.of_scan entries found

theorem scanAll (framed : database.Framed mode) (scans : List (List Address)) :
    (database.scanAll mode scans).Framed mode := by
  induction scans generalizing database with
  | nil => exact framed
  | cons entries scans ih => exact ih (framed.scan entries)

/-- After a scan, a function has the frame of its prologue or none. -/
theorem get?_frames (framed : database.Framed mode) (entries : List Address) {entry : Address}
    (function : entry ∈ (database.scan entries mode).1.functions.keys) :
    (database.scan entries mode).1.frames.get? entry =
      (buildFrame (database.scan entries mode).1.view mode entry).toOption := by
  rw [get?_frames_scan, if_pos function]
  cases built : buildFrame (database.scan entries mode).1.view mode entry with
  | ok frame => rfl
  | error failure =>
    -- An older frame would mean that there is a prologue now.
    cases older : database.frames.get? entry with
    | none => rfl
    | some frame =>
      obtain ⟨current, built'⟩ := framed.of_scan entries older
      rw [built] at built'
      cases built'

end Framed

end Database

end H8
