import H8.Proofs.Decode.PrefixCode
import H8.Proofs.Scan.Steps

/-! What a scan of a fresh database finds.

Three facts hold after every step. What the database knows is what the history
says. Every address that came up is settled or still pending. And control
reaches every marked and every pending address from an entry. When nothing is
pending any more, the scan has found all it can.
-/

set_option autoImplicit false

namespace H8

def Memory.decodeAt (memory : Memory) (address : Address) (mode : Mode) :
    Except DecodeError Instruction :=
  (Database.ofMemory memory).view.decodeAt address mode

theorem Database.decodeAt_view (database : Database) (address : Address) (mode : Mode) :
    database.view.decodeAt address mode = database.memory.decodeAt address mode := rfl

theorem Memory.decode_of_decodeAt {memory : Memory} {address : Address} {mode : Mode}
    {instruction : Instruction} (decodes : memory.decodeAt address mode = .ok instruction) :
    decode (memory.read address maxInstructionLength) address mode = .ok instruction :=
  (View.decodeAt_eq_ok_iff.mp decodes).2

/-- Where an address that control reaches is left: it is marked, or cannot be
decoded, or its instruction overlaps a marked one. -/
inductive Settled (memory : Memory) (mode : Mode) (heads : Heads)
    (failures : List (Address × DecodeError)) (address : Address) : Prop
  | head : heads.contains address = true → Settled memory mode heads failures address
  | failure {error : DecodeError} : memory.decodeAt address mode = .error error →
      (address, error) ∈ failures → Settled memory mode heads failures address
  | overlap {instruction : Instruction} {head : Address × Nat} :
      memory.decodeAt address mode = .ok instruction → head ∈ heads.entries →
      Heads.Overlap (address, instruction.length) head → Settled memory mode heads failures address

theorem Settled.mono {memory : Memory} {mode : Mode} {heads heads' : Heads}
    {failures failures' : List (Address × DecodeError)} {address : Address}
    (settled : Settled memory mode heads failures address)
    (more : heads.entries ⊆ heads'.entries) (further : failures ⊆ failures') :
    Settled memory mode heads' failures' address := by
  cases settled with
  | head known =>
    obtain ⟨length, member⟩ := AddressMap.contains_iff.mp known
    exact .head (AddressMap.contains_iff.mpr ⟨length, more member⟩)
  | failure fails listed => exact .failure fails (further listed)
  | overlap decodes member overlap => exact .overlap decodes (more member) overlap

/-- Control can reach an address from an entry: from each marked instruction on
the way to one of its successors. -/
inductive Reachable (entries : List Address) (history : List Marking) : Address → Prop
  | entry {address : Address} : address ∈ entries → Reachable entries history address
  | next {marking : Marking} {address : Address} : marking ∈ history →
      Reachable entries history marking.address → address ∈ marking.successors →
      Reachable entries history address

theorem Reachable.mono {entries : List Address} {before history : List Marking} {address : Address}
    (reachable : Reachable entries before address) (more : before ⊆ history) :
    Reachable entries history address := by
  induction reachable with
  | entry member => exact .entry member
  | next member _ successor ih => exact .next (more member) ih successor

structure Recorded (memory : Memory) (mode : Mode) (history : List Marking) (trace : Trace) :
    Prop where
  unchanged : trace.database.memory = memory
  decodes : ∀ marking ∈ history, memory.decodeAt marking.address mode = .ok marking.instruction
  visited : ∀ marking ∈ history, marking.address ∈ trace.visited.addresses
  once : (history.map Marking.address).Nodup
  heads : ∀ head, head ∈ trace.database.heads.entries ↔ ∃ marking ∈ history, marking.head = head
  size : trace.database.heads.entries.length = history.length
  instructions : trace.instructions = history.length
  distinct : trace.database.references.all.toList.Nodup
  references : ∀ reference, reference ∈ trace.database.references.all ↔
    ∃ marking ∈ history, reference ∈ marking.references

theorem parts_of_marked {known database : Database} {address : Address} {instruction : Instruction}
    (unknown : known.heads.contains address = false)
    (accepted : known.markHead? address instruction.length = some database) (trace : Trace)
    (effects : Effects) :
    let marked := ({ trace with database }.record instruction effects).database
    marked.memory = known.memory ∧
      marked.heads = known.heads.insert address instruction.length ∧
      marked.references = (effects.references instruction.address).foldl CrossReferences.insert
        known.references := by
  have core := Trace.core_record { trace with database } instruction effects
  rw [Database.markHead?_eq_some unknown accepted] at core ⊢
  simpa only [Database.core, Prod.mk.injEq] using core

namespace Recorded
variable {memory : Memory} {mode : Mode} {before now : List Marking} {trace next : Trace}

theorem head_pos (recorded : Recorded memory mode before trace) :
    ∀ head ∈ trace.database.heads.entries, 0 < head.2 := by
  intro head member
  obtain ⟨marking, known, rfl⟩ := (recorded.heads head).mp member
  exact length_pos_of_decode (Memory.decode_of_decodeAt (recorded.decodes marking known))

theorem step (recorded : Recorded memory mode before trace) (step : Step mode trace now next) :
    Recorded memory mode (before ++ now) next := by
  cases step with
  | seen _ _ =>
    rw [List.append_nil]
    exact { recorded with }
  | passed fresh _ _ =>
    rw [List.append_nil]
    exact { recorded with visited := fun marking member => .tail _ (recorded.visited marking member) }
  | @marked address rest instruction database fresh _ unknown decodes accepted =>
    rw [Database.decodeAt_view, recorded.unchanged] at decodes
    obtain rfl := address_of_decode (Memory.decode_of_decodeAt decodes)
    obtain ⟨unchanged, heads, references⟩ := parts_of_marked unknown accepted
      (trace.take instruction.address rest fresh) (instruction.effects database.view mode)
    -- The address is new, so no earlier marking has it.
    have others : ∀ marking ∈ before, marking.address ≠ instruction.address :=
      fun marking member same => fresh (same ▸ recorded.visited marking member)
    refine ⟨unchanged.trans recorded.unchanged, ?_, ?_, ?_, fun head => ?_, ?_, ?_, ?_,
      fun reference => ?_⟩
    · exact List.forall_mem_append.mpr ⟨recorded.decodes, List.forall_mem_singleton.mpr decodes⟩
    · refine List.forall_mem_append.mpr ⟨fun marking member => ?_, ?_⟩
      · exact .tail _ (recorded.visited marking member)
      · exact List.forall_mem_singleton.mpr (.head _)
    · rw [List.map_append, List.nodup_append]
      refine ⟨recorded.once, by simp, ?_⟩
      rintro first member second added rfl
      obtain ⟨marking, known, rfl⟩ := List.mem_map.mp member
      exact others marking known (List.mem_singleton.mp added)
    · rw [heads, AddressMap.mem_insert_iff, recorded.heads head, exists_mem_concat]
      constructor
      · rintro (rfl | ⟨known, -⟩)
        · exact .inr rfl
        · exact .inl known
      · rintro (⟨marking, member, rfl⟩ | rfl)
        · exact .inr ⟨⟨marking, member, rfl⟩, others marking member⟩
        · exact .inl rfl
    · rw [heads, AddressMap.length_insert unknown, recorded.size, List.length_append]
      rfl
    · rw [List.length_append, ← recorded.instructions]
      rfl
    · rw [references]
      exact CrossReferences.nodup_foldl_insert recorded.distinct _
    · rw [references, CrossReferences.mem_foldl_insert, recorded.references reference,
        exists_mem_concat]
      rfl

end Recorded

structure Covered (memory : Memory) (mode : Mode) (entries : List Address) (history : List Marking)
    (trace : Trace) : Prop where
  settled : ∀ address ∈ trace.visited.addresses,
    Settled memory mode trace.database.heads trace.failures address
  due : ∀ address, (address ∈ entries ∨ ∃ marking ∈ history, address ∈ marking.successors) →
    address ∈ trace.visited.addresses ∨ address ∈ trace.pending
  listed : ∀ failure ∈ trace.failures, failure.1 ∈ trace.visited.addresses
  once : (trace.failures.map Prod.fst).Nodup

namespace Covered
variable {memory : Memory} {mode : Mode} {entries : List Address} {before now : List Marking}
  {trace next : Trace}

theorem settled_of_passes (recorded : Recorded memory mode before trace) {address : Address}
    {failures : List (Address × DecodeError)} (passes : Passes mode trace.database address failures)
    (earlier : List (Address × DecodeError)) :
    Settled memory mode trace.database.heads (earlier ++ failures) address := by
  cases passes with
  | known known => exact .head known
  | failed _ fails =>
    rw [Database.decodeAt_view, recorded.unchanged] at fails
    exact .failure fails (List.mem_append_right _ (.head _))
  | refused unknown decodes refused =>
    rw [Database.decodeAt_view, recorded.unchanged] at decodes
    have long := length_pos_of_decode (Memory.decode_of_decodeAt decodes)
    obtain ⟨head, member, overlap⟩ := Heads.overlap_of_overlaps recorded.head_pos long
      (Database.overlaps_of_markHead? unknown refused)
    exact .overlap decodes member overlap

theorem failures_of_passes {address : Address} {failures : List (Address × DecodeError)}
    {database : Database} (passes : Passes mode database address failures) :
    (∀ failure ∈ failures, failure.1 = address) ∧ (failures.map Prod.fst).Nodup := by
  cases passes <;> simp

theorem once_append (covered : Covered memory mode entries before trace) {address : Address}
    (fresh : address ∉ trace.visited.addresses) {failures : List (Address × DecodeError)}
    (own : ∀ failure ∈ failures, failure.1 = address) (distinct : (failures.map Prod.fst).Nodup) :
    ((trace.failures ++ failures).map Prod.fst).Nodup := by
  rw [List.map_append, List.nodup_append]
  refine ⟨covered.once, distinct, ?_⟩
  rintro first earlier second new rfl
  obtain ⟨failure, listed, rfl⟩ := List.mem_map.mp earlier
  obtain ⟨added, member, same⟩ := List.mem_map.mp new
  have visited := covered.listed failure listed
  rw [← same, own added member] at visited
  exact fresh visited

theorem due_take {address taken : Address} {rest visited : List Address}
    (due : address ∈ visited ∨ address ∈ taken :: rest) :
    address ∈ taken :: visited ∨ address ∈ rest := by
  rcases due with visited | pending
  · exact .inl (.tail _ visited)
  · rcases List.mem_cons.mp pending with rfl | later
    · exact .inl (.head _)
    · exact .inr later

theorem step (covered : Covered memory mode entries before trace)
    (recorded : Recorded memory mode before trace) (step : Step mode trace now next) :
    Covered memory mode entries (before ++ now) next := by
  cases step with
  | @seen address rest waiting seen =>
    rw [List.append_nil]
    refine { covered with due := fun other reached => ?_ }
    have due := covered.due other reached
    rw [waiting] at due
    -- The address that is dropped has been visited before.
    rcases due_take due with visited | pending
    · rcases List.mem_cons.mp visited with rfl | visited
      · exact .inl seen
      · exact .inl visited
    · exact .inr pending
  | @passed address rest failures fresh waiting passes =>
    rw [List.append_nil]
    obtain ⟨own, distinct⟩ := failures_of_passes passes
    refine ⟨fun other member => ?_, fun other reached => ?_, fun failure member => ?_, ?_⟩
    · rcases List.mem_cons.mp member with rfl | visited
      · exact settled_of_passes recorded passes trace.failures
      · exact (covered.settled other visited).mono (List.Subset.refl _)
          (List.subset_append_left _ _)
    · have due := covered.due other reached
      rw [waiting] at due
      exact due_take due
    · rcases List.mem_append.mp member with earlier | new
      · exact .tail _ (covered.listed failure earlier)
      · exact own failure new ▸ .head _
    · exact covered.once_append fresh own distinct
  | @marked address rest instruction database fresh waiting unknown decodes accepted =>
    obtain ⟨-, heads, -⟩ := parts_of_marked unknown accepted (trace.take address rest fresh)
      (instruction.effects database.view mode)
    refine ⟨fun other member => ?_, fun other reached => ?_, fun failure member => ?_, covered.once⟩
    · rw [heads]
      rcases List.mem_cons.mp member with rfl | visited
      · exact .head AddressMap.contains_insert
      · exact (covered.settled other visited).mono (AddressMap.subset_insert unknown)
          (List.Subset.refl _)
    · rw [Trace.mem_pending_record]
      rw [exists_mem_concat, ← or_assoc] at reached
      rcases reached with earlier | successor
      · have due := covered.due other earlier
        rw [waiting] at due
        exact (due_take due).imp_right .inr
      · exact .inr (.inl successor)
    · exact .tail _ (covered.listed failure member)

end Covered

structure Reached (entries : List Address) (history : List Marking) (trace : Trace) : Prop where
  pending : ∀ address ∈ trace.pending, Reachable entries history address
  marked : ∀ marking ∈ history, Reachable entries history marking.address

theorem Reached.step {mode : Mode} {entries : List Address} {before now : List Marking}
    {trace next : Trace} (reached : Reached entries before trace) (step : Step mode trace now next) :
    Reached entries (before ++ now) next := by
  cases step with
  | seen waiting _ | passed _ waiting _ =>
    rw [List.append_nil]
    exact ⟨fun address member => reached.pending address (waiting ▸ .tail _ member), reached.marked⟩
  | @marked address rest instruction database fresh waiting unknown decodes accepted =>
    obtain rfl := address_of_decode (Memory.decode_of_decodeAt decodes)
    have more := List.subset_append_left before
      [⟨instruction, instruction.effects database.view mode⟩]
    -- The marked address was pending; its successors are one link further on.
    have here : Reachable entries (before ++ [⟨instruction, instruction.effects database.view mode⟩])
        instruction.address := (reached.pending _ (waiting ▸ .head _)).mono more
    refine ⟨fun address member => ?_, List.forall_mem_append.mpr ⟨fun marking member => ?_, ?_⟩⟩
    · rcases Trace.mem_pending_record.mp member with successor | later
      · exact .next (List.mem_append_right _ (.head _)) here successor
      · exact (reached.pending address (waiting ▸ .tail _ later)).mono more
    · exact (reached.marked marking member).mono more
    · exact List.forall_mem_singleton.mpr here

structure Traced (memory : Memory) (mode : Mode) (entries : List Address) (history : List Marking)
    (trace : Trace) : Prop where
  recorded : Recorded memory mode history trace
  covered : Covered memory mode entries history trace
  reached : Reached entries history trace

section
variable {memory : Memory} {mode : Mode} {entries : List Address}

theorem Traced.step {before now : List Marking} {trace next : Trace}
    (traced : Traced memory mode entries before trace) (step : Step mode trace now next) :
    Traced memory mode entries (before ++ now) next :=
  ⟨traced.recorded.step step, traced.covered.step traced.recorded step, traced.reached.step step⟩

theorem recorded_start : Recorded memory mode [] (.start (.ofMemory memory) entries) := by
  have core := Database.core_start (.ofMemory memory) entries
  simp only [Database.core, Prod.mk.injEq] at core
  obtain ⟨unchanged, heads, references⟩ := core
  refine ⟨unchanged, by simp, by simp, by simp, fun head => ?_, ?_, rfl, ?_, fun reference => ?_⟩
  · rw [heads]
    simp [Database.ofMemory, AddressMap.empty]
  · rw [heads]
    rfl
  · rw [references]
    exact .nil
  · rw [references]
    simp [Database.ofMemory, CrossReferences.empty]

theorem covered_start : Covered memory mode entries [] (.start (.ofMemory memory) entries) := by
  refine ⟨by simp [Trace.start, Visited.empty], fun address reached => ?_, by simp [Trace.start],
    by simp [Trace.start]⟩
  rcases reached with entry | ⟨marking, member, -⟩
  · exact .inr entry
  · cases member

theorem reached_start {database : Database} : Reached entries [] (.start database entries) :=
  ⟨fun _ entry => .entry entry, by simp⟩

theorem traced_of_runs {history : List Marking} {trace : Trace}
    (runs : Runs mode (.start (.ofMemory memory) entries) history trace) :
    Traced memory mode entries history trace :=
  runs.keeps (Traced memory mode entries) Traced.step []
    ⟨recorded_start, covered_start, reached_start⟩

end

structure Closure (memory : Memory) (entries : List Address) (mode : Mode)
    (history : List Marking) (database : Database) (report : ScanReport) : Prop where
  unchanged : database.memory = memory
  /-- The heads are the marked instructions, none of which is marked twice. -/
  heads : ∀ head, head ∈ database.heads.entries ↔ ∃ marking ∈ history, marking.head = head
  once : (history.map Marking.address).Nodup
  decodes : ∀ marking ∈ history,
    database.view.decodeAt marking.address mode = .ok marking.instruction
  entered : ∀ address ∈ entries, Settled database.memory mode database.heads report.failures address
  followed : ∀ marking ∈ history, ∀ address ∈ marking.successors,
    Settled database.memory mode database.heads report.failures address
  reachable : ∀ head ∈ database.heads.entries, Reachable entries history head.1 ∧
    ∃ instruction, database.view.decodeAt head.1 mode = .ok instruction ∧ instruction.length = head.2
  instructions : report.instructions = database.heads.entries.length
  failures : (report.failures.map Prod.fst).Nodup
  distinct : database.references.all.toList.Nodup
  references : ∀ reference, reference ∈ database.references.all ↔
    ∃ marking ∈ history, reference ∈ marking.references

/-- A scan of a fresh database is a run, and whatever history that run has, the
scan has marked and recorded all that follows from the entries and no more. -/
theorem scan_closes (memory : Memory) (entries : List Address) (mode : Mode) :
    let start := Trace.start (.ofMemory memory) entries
    let result := (Database.ofMemory memory).scan entries mode
    (∃ history, Runs mode start history (start.run mode)) ∧
      ∀ history, Runs mode start history (start.run mode) →
        Closure memory entries mode history result.1 result.2 := by
  intro start result
  obtain ⟨exists_history, empty⟩ := exists_runs_run mode start
  refine ⟨exists_history, fun history runs => ?_⟩
  obtain ⟨recorded, covered, reached⟩ := traced_of_runs runs
  have core := Database.core_scan (.ofMemory memory) entries mode
  simp only [Database.core, Prod.mk.injEq] at core
  obtain ⟨memories, heads, references⟩ := core
  have unchanged : result.1.memory = memory := memories.trans recorded.unchanged
  -- Nothing is pending, so what came up has been looked at.
  have settled (address : Address)
      (due : address ∈ entries ∨ ∃ marking ∈ history, address ∈ marking.successors) :
      Settled result.1.memory mode result.1.heads result.2.failures address := by
    have visited := (covered.due address due).resolve_right (by simp [start, empty])
    rw [unchanged, heads]
    exact covered.settled address visited
  have decodes (marking : Marking) (member : marking ∈ history) :
      result.1.view.decodeAt marking.address mode = .ok marking.instruction := by
    rw [Database.decodeAt_view, unchanged]
    exact recorded.decodes marking member
  refine ⟨unchanged, fun head => ?_, recorded.once, decodes,
    fun address entry => settled address (.inl entry),
    fun marking member address successor => settled address (.inr ⟨marking, member, successor⟩),
    fun head member => ?_, ?_, covered.once, ?_, fun reference => ?_⟩
  · rw [heads]
    exact recorded.heads head
  · rw [heads] at member
    obtain ⟨marking, known, rfl⟩ := (recorded.heads head).mp member
    exact ⟨reached.marked marking known, marking.instruction, decodes marking known, rfl⟩
  · rw [heads, recorded.size]
    exact recorded.instructions
  · rw [references]
    exact recorded.distinct
  · rw [references]
    exact recorded.references reference

end H8
