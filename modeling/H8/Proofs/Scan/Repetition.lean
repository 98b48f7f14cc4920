import H8.Proofs.Scan.Frames
import H8.Proofs.Symbols

/-! Scanning twice.

An address that a scan has looked at is exhausted: it is marked, or cannot be
decoded, or overlaps what is marked, and what is marked later changes none of
that. So a second scan from the same entries marks nothing, and all that it
names and frames has its name and its frame.
-/

set_option autoImplicit false

namespace H8

namespace Heads
variable {heads : Heads} {address start : Address} {length size : Nat}

theorem overlaps_insert (unknown : heads.contains start = false)
    (free : heads.overlaps start size = false) (overlaps : heads.overlaps address length = true) :
    Heads.overlaps (heads.insert start size) address length = true := by
  have kept : heads.entries ⊆ (heads.insert start size).entries := AddressMap.subset_insert unknown
  rcases Bool.or_eq_true_iff.mp overlaps with before | meets
  · obtain ⟨head, found, beyond⟩ := (Option.any_eq_true _ _).mp before
    obtain ⟨member, below, nearest⟩ := AddressMap.below?_eq_some_iff.mp found
    -- A head between the two would lie inside the one that reaches beyond.
    have outside : start < address → start ≤ head.1 := by
      intro lower
      by_contra between
      have found' : heads.below? start = some head :=
        AddressMap.below?_eq_some_iff.mpr ⟨member, UInt32.not_le.mp between,
          fun other known low => nearest other known (UInt32.lt_trans low lower)⟩
      have reaches : start < stop head := UInt32.lt_trans lower (of_decide_eq_true beyond)
      simp [Heads.overlaps, found', reaches] at free
    have still : (heads.insert start size).below? address = some head := by
      apply AddressMap.below?_eq_some_iff.mpr
      refine ⟨kept member, below, fun other known lower => ?_⟩
      rcases AddressMap.mem_insert_iff.mp known with rfl | ⟨known, -⟩
      · exact outside lower
      · exact nearest other known lower
    unfold Heads.overlaps
    rw [still, Bool.or_eq_true_iff]
    exact .inl beyond
  · obtain ⟨head, member, inside⟩ := List.any_eq_true.mp meets
    unfold Heads.overlaps
    rw [Bool.or_eq_true_iff]
    exact .inr (List.any_eq_true.mpr ⟨head, kept member, inside⟩)

end Heads

def Exhausted (mode : Mode) (database : Database) (address : Address) : Prop :=
  ∃ failures, Passes mode database address failures

namespace Exhausted
variable {mode : Mode} {database later : Database} {address : Address} {trace next : Trace}
  {now : List Marking}

theorem of_contains (known : database.heads.contains address = true) : Exhausted mode database address :=
  ⟨[], .known known⟩

theorem mono (exhausted : Exhausted mode database address) (memories : later.memory = database.memory)
    (more : database.heads.contains address = true → later.heads.contains address = true)
    (overlaps : ∀ length, database.heads.overlaps address length = true →
      later.heads.overlaps address length = true) : Exhausted mode later address := by
  have decodes : later.view.decodeAt address mode = database.view.decodeAt address mode := by
    rw [Database.decodeAt_view, Database.decodeAt_view, memories]
  cases known : later.heads.contains address with
  | true => exact of_contains known
  | false =>
    obtain ⟨failures, passes⟩ := exhausted
    cases passes with
    | known before =>
      rw [more before] at known
      cases known
    | failed _ fails => exact ⟨_, .failed known (decodes.trans fails)⟩
    | @refused instruction unknown decoded refused =>
      refine ⟨_, .refused known (decodes.trans decoded) ?_⟩
      unfold Database.markHead?
      rw [Heads.mark?_of_not_contains known,
        if_pos (overlaps _ (Database.overlaps_of_markHead? unknown refused))]
      rfl

theorem of_core (exhausted : Exhausted mode database address) (same : later.core = database.core) :
    Exhausted mode later address := by
  simp only [Database.core, Prod.mk.injEq] at same
  obtain ⟨memories, heads, -⟩ := same
  exact exhausted.mono memories (heads ▸ id) (heads ▸ fun _ => id)

theorem step (exhausted : Exhausted mode trace.database address) (step : Step mode trace now next) :
    Exhausted mode next.database address := by
  cases step with
  | seen _ _ | passed _ _ _ => exact exhausted
  | @marked start rest instruction marked fresh _ unknown _ accepted =>
    obtain ⟨memories, heads, -⟩ := parts_of_marked unknown accepted (trace.take start rest fresh)
      (instruction.effects marked.view mode)
    have free : trace.database.heads.overlaps start instruction.length = false := by
      by_contra overlaps
      unfold Database.markHead? at accepted
      rw [Heads.mark?_of_not_contains unknown, if_pos (Bool.eq_true_of_not_eq_false overlaps)] at accepted
      cases accepted
    apply exhausted.mono memories
    · rw [heads]
      exact AddressMap.contains_insert_of_contains
    · rw [heads]
      exact fun length => Heads.overlaps_insert unknown free

theorem not_marked {instruction : Instruction} {marked : Database}
    (exhausted : Exhausted mode database address)
    (unknown : database.heads.contains address = false)
    (decodes : database.view.decodeAt address mode = .ok instruction)
    (accepted : database.markHead? address instruction.length = some marked) : False := by
  obtain ⟨failures, passes⟩ := exhausted
  cases passes with
  | known known =>
    rw [unknown] at known
    cases known
  | failed _ fails =>
    rw [decodes] at fails
    cases fails
  | refused _ decodes' refused =>
    rw [decodes] at decodes'
    cases decodes'
    rw [accepted] at refused
    cases refused

end Exhausted

/-- All entries have been looked at or are pending, and are functions; all that
has been looked at is exhausted. -/
structure Exhausting (mode : Mode) (entries : List Address) (trace : Trace) : Prop where
  visited : ∀ address ∈ trace.visited.addresses, Exhausted mode trace.database address
  due : ∀ address ∈ entries, address ∈ trace.visited.addresses ∨ address ∈ trace.pending
  functions : ∀ address ∈ entries, trace.database.functions.contains address = true

namespace Database

theorem contains_functions_addReference {database : Database} {address : Address}
    (known : database.functions.contains address = true) (reference : Reference) :
    (database.addReference reference).functions.contains address = true := by
  unfold addReference
  split
  · exact AddressMap.contains_insert_of_contains known
  · exact known

theorem contains_functions_start (database : Database) {entries : List Address} {address : Address}
    (entry : address ∈ entries) :
    (Trace.start database entries).database.functions.contains address = true := by
  change ((entries.reverse.foldl insertFunction database).functions).contains address = true
  rw [List.foldl_reverse]
  induction entries with
  | nil => cases entry
  | cons first rest ih =>
    rcases List.mem_cons.mp entry with rfl | later
    · exact AddressMap.contains_insert
    · exact AddressMap.contains_insert_of_contains (ih later)

end Database

theorem Trace.contains_functions_record {trace : Trace} {address : Address}
    (known : trace.database.functions.contains address = true) (instruction : Instruction)
    (effects : Effects) :
    (trace.record instruction effects).database.functions.contains address = true := by
  unfold record
  dsimp only
  refine List.foldlRecOn (motive := fun database : Database => database.functions.contains address = true) _ _ ?_
    fun database known reference _ => Database.contains_functions_addReference known reference
  cases effects.switch <;> exact known

namespace Exhausting
variable {mode : Mode} {entries : List Address} {trace next : Trace} {now : List Marking}

theorem start (mode : Mode) (database : Database) (entries : List Address) :
    Exhausting mode entries (.start database entries) where
  visited := by simp [Trace.start, Visited.empty]
  due := fun _ => .inr
  functions := fun _ => Database.contains_functions_start database

theorem step (exhausting : Exhausting mode entries trace) (step : Step mode trace now next) :
    Exhausting mode entries next := by
  have earlier : ∀ address ∈ trace.visited.addresses, Exhausted mode next.database address :=
    fun address member => (exhausting.visited address member).step step
  cases step with
  | @seen address rest waiting seen =>
    refine ⟨earlier, fun other entry => ?_, exhausting.functions⟩
    have due := exhausting.due other entry
    rw [waiting] at due
    rcases Covered.due_take due with visited | pending
    · rcases List.mem_cons.mp visited with rfl | visited
      · exact .inl seen
      · exact .inl visited
    · exact .inr pending
  | @passed address rest failures fresh waiting passes =>
    refine ⟨fun other member => ?_, fun other entry => ?_, exhausting.functions⟩
    · rcases List.mem_cons.mp member with rfl | visited
      · exact ⟨failures, passes⟩
      · exact earlier other visited
    · have due := exhausting.due other entry
      rw [waiting] at due
      exact Covered.due_take due
  | @marked address rest instruction marked fresh waiting unknown decodes accepted =>
    obtain ⟨-, heads, -⟩ := parts_of_marked unknown accepted (trace.take address rest fresh)
      (instruction.effects marked.view mode)
    refine ⟨fun other member => ?_, fun other entry => ?_, fun other entry => ?_⟩
    · rcases List.mem_cons.mp member with rfl | visited
      · apply Exhausted.of_contains
        rw [heads]
        exact AddressMap.contains_insert
      · exact earlier other visited
    · have due := exhausting.due other entry
      rw [waiting] at due
      rw [Trace.mem_pending_record]
      exact (Covered.due_take due).imp_right .inr
    · apply Trace.contains_functions_record
      rw [Database.markHead?_eq_some unknown accepted]
      exact exhausting.functions other entry

end Exhausting

theorem Database.exhausted_scan (database : Database) {entries : List Address} (mode : Mode)
    {address : Address} (entry : address ∈ entries) :
    let scanned := (database.scan entries mode).1
    Exhausted mode scanned address ∧ scanned.functions.contains address = true := by
  intro scanned
  obtain ⟨⟨history, runs⟩, empty⟩ := exists_runs_run mode (.start database entries)
  have exhausting := runs.keeps (fun _ => Exhausting mode entries)
    (fun exhausting step => exhausting.step step) [] (.start mode database entries)
  have visited := (exhausting.due address entry).resolve_right (by simp [empty])
  refine ⟨(exhausting.visited address visited).of_core (core_scan database entries mode), ?_⟩
  rw [functions_scan]
  exact exhausting.functions address entry

structure Idle (mode : Mode) (database : Database) (trace : Trace) : Prop where
  unchanged : trace.database = database
  instructions : trace.instructions = 0
  switches : trace.switches = 0
  targets : trace.targets = []
  pending : ∀ address ∈ trace.pending, Exhausted mode database address

theorem Idle.step {mode : Mode} {database : Database} {trace next : Trace} {now : List Marking}
    (idle : Idle mode database trace) (step : Step mode trace now next) : Idle mode database next := by
  cases step with
  | seen waiting _ | passed _ waiting _ =>
    exact { idle with pending := fun address member => idle.pending address (waiting ▸ .tail _ member) }
  | @marked address rest instruction marked fresh waiting unknown decodes accepted =>
    have exhausted := idle.pending address (waiting ▸ .head _)
    rw [← idle.unchanged] at exhausted
    exact (exhausted.not_marked unknown decodes accepted).elim

namespace Database
variable {database : Database} {mode : Mode}

theorem idle_run {entries : List Address}
    (exhausted : ∀ address ∈ entries, Exhausted mode database address)
    (functions : ∀ address ∈ entries, database.functions.contains address = true) :
    Idle mode database (Trace.run mode (.start database entries)) := by
  have unchanged : (Trace.start database entries).database = database := by
    apply List.foldlRecOn (motive := fun other => other = database) _ insertFunction rfl
    intro other same entry member
    obtain ⟨⟨⟩, known⟩ := Option.isSome_iff_exists.mp (functions entry (List.mem_reverse.mp member))
    rw [same, insertFunction, AddressMap.insert_of_get? known]
  obtain ⟨⟨history, runs⟩, -⟩ := exists_runs_run mode (.start database entries)
  exact runs.keeps (fun _ => Idle mode database) (fun idle step => idle.step step) []
    ⟨unchanged, rfl, rfl, rfl, exhausted⟩

end Database

namespace Symbols
variable {symbols : Symbols} {address : Address}

theorem isSome_label?_insert (symbols : Symbols) (label : Assembly.Label) (address : Address) :
    ((symbols.insert label address).label? address).isSome = true := by
  simp [label?, addressSymbol?, insert, AddressMap.get?_insert]

theorem isSome_label?_ensureLabel (symbols : Symbols) (address : Address) (kind : ReferenceKind) :
    ((symbols.ensureLabel address kind).label? address).isSome = true := by
  unfold ensureLabel
  split
  · next known => simp [known]
  · exact isSome_label?_insert symbols _ address

theorem isSome_label?_of_isSome (named : (symbols.label? address).isSome = true) (other : Address)
    (kind : ReferenceKind) : ((symbols.ensureLabel other kind).label? address).isSome = true := by
  unfold ensureLabel
  split
  · exact named
  · next unnamed =>
    have different : address ≠ other := by
      rintro rfl
      rw [unnamed] at named
      cases named
    simp only [label?, addressSymbol?, Option.isSome_map, Option.isSome_iff_exists,
      Option.bind_eq_some_iff] at named ⊢
    obtain ⟨symbol, number, found, here⟩ := named
    refine ⟨symbol, number, ?_, ?_⟩
    · change (symbols.byAddress.insert other _).get? address = _
      rw [AddressMap.get?_insert, if_neg different, found]
    · have old : number < symbols.all.size := (Array.getElem?_eq_some_iff.mp here).1
      change (symbols.all.push _)[number]? = _
      rw [Array.getElem?_push, if_neg (Nat.ne_of_lt old), here]

theorem ensureLabel_of_isSome (named : (symbols.label? address).isSome = true) (kind : ReferenceKind) :
    symbols.ensureLabel address kind = symbols := by
  obtain ⟨label, known⟩ := Option.isSome_iff_exists.mp named
  unfold ensureLabel
  rw [known]

end Symbols

namespace Database
variable {database : Database} {mode : Mode} {entry : Address}

theorem isSome_label?_describe {entries : List Address} (member : entry ∈ entries)
    (database : Database) :
    ((entries.foldl (describeFunction mode) database).symbols.label? entry).isSome = true := by
  induction entries generalizing database with
  | nil => cases member
  | cons first rest ih =>
    rw [List.foldl_cons]
    rcases List.mem_cons.mp member with rfl | later
    · -- Named here, and kept by what is described afterwards.
      refine List.foldlRecOn (motive := fun other : Database =>
        (other.symbols.label? entry).isSome = true) rest _ ?_ fun other named next _ => ?_
      · rw [symbols_describeFunction]
        exact Symbols.isSome_label?_ensureLabel _ entry _
      · rw [symbols_describeFunction]
        exact Symbols.isSome_label?_of_isSome named next _
    · exact ih later _

theorem isSome_label?_scan (database : Database) (entries : List Address) (mode : Mode)
    (function : entry ∈ (database.scan entries mode).1.functions.keys) :
    ((database.scan entries mode).1.symbols.label? entry).isSome = true := by
  rw [functions_scan] at function
  unfold scan Trace.conclude
  refine List.foldlRecOn (motive := fun other : Database =>
    (other.symbols.label? entry).isSome = true) _ _ (isSome_label?_describe function _)
    fun other named target _ => ?_
  unfold labelTarget
  split
  · exact Symbols.isSome_label?_of_isSome named target.1 target.2
  · exact named

theorem describeFunction_eq_self (named : (database.symbols.label? entry).isSome = true)
    (framed : ∀ frame, buildFrame database.view mode entry = .ok frame →
      database.frames.get? entry = some frame) : database.describeFunction mode entry = database := by
  have label : database.ensureLabel entry .subroutine = database := by
    unfold ensureLabel
    rw [Symbols.ensureLabel_of_isSome named]
  unfold describeFunction
  dsimp only
  rw [label]
  split
  · next frame built =>
    have stored := framed frame built
    rw [← entry_of_buildFrame built] at stored
    rw [insertFrame, AddressMap.insert_of_get? stored]
  · rfl

theorem scan_of_exhausted {entries : List Address}
    (exhausted : ∀ address ∈ entries, Exhausted mode database address)
    (functions : ∀ address ∈ entries, database.functions.contains address = true)
    (described : ∀ entry ∈ database.functions.keys, database.describeFunction mode entry = database) :
    (database.scan entries mode).1 = database ∧ (database.scan entries mode).2.instructions = 0 ∧
      (database.scan entries mode).2.switches = 0 ∧
      (database.scan entries mode).2.functions = database.functions.keys := by
  have idle := idle_run exhausted functions
  have same : database.functions.keys.foldl (describeFunction mode) database = database :=
    List.foldlRecOn (motive := fun other => other = database) _ _ rfl
      fun other unchanged entry member => unchanged ▸ described entry member
  unfold scan Trace.conclude
  dsimp only
  rw [idle.unchanged, idle.targets, same]
  exact ⟨rfl, idle.instructions, idle.switches, rfl⟩

end Database

/-- A second scan from the same entries changes nothing and finds nothing new.
After any scans in one mode, each function has the frame that its prologue
gives now, or none if it has no prologue. -/
theorem scan_idempotent (mode : Mode) :
    (∀ (database : Database) (entries : List Address),
      let first := database.scan entries mode
      let second := first.1.scan entries mode
      second.1 = first.1 ∧ second.2.instructions = 0 ∧ second.2.switches = 0 ∧
        second.2.functions = first.2.functions) ∧
    ∀ (memory : Memory) (scans : List (List Address)), scans ≠ [] →
      let database := (Database.ofMemory memory).scanAll mode scans
      ∀ entry ∈ database.functions.keys,
        database.frames.get? entry = (buildFrame database.view mode entry).toOption := by
  constructor
  · intro database entries first second
    have functions : first.2.functions = first.1.functions.keys :=
      congrArg AddressMap.keys (Database.functions_scan database entries mode).symm
    rw [functions]
    refine Database.scan_of_exhausted
      (fun address member => (database.exhausted_scan mode member).1)
      (fun address member => (database.exhausted_scan mode member).2) fun entry function => ?_
    refine Database.describeFunction_eq_self
      (Database.isSome_label?_scan database entries mode function) fun frame built => ?_
    rw [Database.get?_frames_scan, if_pos function, built]
    rfl
  · intro memory scans some database entry function
    obtain ⟨earlier, last, rfl⟩ := List.eq_nil_or_concat scans |>.resolve_left some
    have split : database =
        (((Database.ofMemory memory).scanAll mode earlier).scan last mode).1 := by
      simp [database, Database.scanAll]
    rw [split] at function ⊢
    exact ((Database.framed_ofMemory mode memory).scanAll earlier).get?_frames last function

/-- The second scan finds a branch into a prologue, which ends there from then on. -/
theorem scan_idempotent_shortened :
    let mode : Mode := ⟨.h8300h, .advanced⟩
    let memory : Memory := .ofImage #[0x01, 0x00, 0x6D, 0xF6, 0x0F, 0xF6, 0x7A, 0x37, 0x00, 0x00, 0x00,
      0x08, 0x54, 0x70, 0x40, 0xF6] 0x100
    let scans : List (List Address) := [[0x100], [0x10E]]
    let database := (Database.ofMemory memory).scanAll mode scans
    scans ≠ [] ∧ 0x100 ∈ database.functions.keys ∧
      ((Database.ofMemory memory).scan [0x100] mode).1.frames.get? 0x100 =
        some ⟨0x100, 4, [⟨0, 4, .returnAddress⟩, ⟨-4, 4, .savedRegister⟩, ⟨-12, 8, .localVariable⟩],
          some ⟨.general .whole 6, -4⟩, -12, 0x10C⟩ ∧
      database.frames.get? 0x100 = some ⟨0x100, 4, [⟨0, 4, .returnAddress⟩, ⟨-4, 4, .savedRegister⟩],
        some ⟨.general .whole 6, -4⟩, -4, 0x106⟩ := by
  intro mode memory scans database
  let begun := (Trace.start (.ofMemory memory) [0x100]).runFor mode 5
  let resumed := (Trace.start (begun.conclude mode).1 [0x10E]).runFor mode 4
  have facts : (begun.pending = [] ∧ resumed.pending = []) ∧
      0x100 ∈ (resumed.conclude mode).1.functions.keys ∧
      (begun.conclude mode).1.frames.get? 0x100 =
        some ⟨0x100, 4, [⟨0, 4, .returnAddress⟩, ⟨-4, 4, .savedRegister⟩, ⟨-12, 8, .localVariable⟩],
          some ⟨.general .whole 6, -4⟩, -12, 0x10C⟩ ∧
      (buildFrame (resumed.conclude mode).1.view mode 0x100).toOption =
        some ⟨0x100, 4, [⟨0, 4, .returnAddress⟩, ⟨-4, 4, .savedRegister⟩],
          some ⟨.general .whole 6, -4⟩, -4, 0x106⟩ := by
    decide +kernel
  obtain ⟨⟨finished, finished'⟩, function, before, after⟩ := facts
  have scanned : (Database.ofMemory memory).scan [0x100] mode = begun.conclude mode :=
    Database.scan_eq_runFor 5 finished
  have again : database = (resumed.conclude mode).1 := by
    change (((Database.ofMemory memory).scan [0x100] mode).1.scan [0x10E] mode).1 = _
    rw [scanned, Database.scan_eq_runFor 4 finished']
  rw [← again] at function after
  have some : scans ≠ [] := by simp [scans]
  have framed := (scan_idempotent mode).2 memory scans some 0x100 function
  refine ⟨some, function, ?_, framed.trans after⟩
  rw [scanned]
  exact before

end H8
