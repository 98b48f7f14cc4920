import H8.Proofs.Database

/-! Tracing as a sequence of steps.

A step takes the next pending address: one that has been looked at before, one
that is passed over, or one whose instruction is marked. A run is a sequence of
steps. Its history lists the instructions that were marked, each with the
effects that it had then, which depend on what was known at that moment.
-/

set_option autoImplicit false

namespace H8

structure Marking where
  instruction : Instruction
  effects : Effects

namespace Marking

def address (marking : Marking) : Address := marking.instruction.address

def head (marking : Marking) : Address × Nat := (marking.address, marking.instruction.length)

def references (marking : Marking) : List Reference := marking.effects.references marking.address

end Marking

/-- The address that an edge is known to lead to, the following one apart. -/
def Edge.target? : Edge → Option Address
  | .jump target | .call target => target
  | .conditional target => some target
  | .fallthrough _ | .back => none

def Effects.tableTargets (effects : Effects) : List Address :=
  (effects.switch.map SwitchTable.targets).getD []

/-- Where control can go from an instruction: on, to the known target of a jump,
branch or call, and to each element of a jump table. -/
def Marking.successors (marking : Marking) : List Address :=
  (if marking.effects.flow.fallsThrough then [marking.instruction.next] else []) ++
    marking.effects.edges.filterMap Edge.target? ++ marking.effects.tableTargets

theorem Effects.followed_edgeReference (source : Address) (explained : Bool) (edge : Edge) :
    (edgeReference? source explained edge).bind Reference.followed? = edge.target? := by
  cases edge with
  | fallthrough | back | conditional => rfl
  | jump target =>
    cases target with
    | none => cases explained <;> rfl
    | some target => rfl
  | call target => cases target <;> rfl

/-- The references that are followed lead to the known targets. -/
theorem Effects.followed_references (effects : Effects) (source : Address) :
    (effects.references source).filterMap Reference.followed? =
      effects.edges.filterMap Edge.target? ++ effects.tableTargets := by
  have edges : (effects.edges.filterMap (edgeReference? source effects.switch.isSome)).filterMap
      Reference.followed? = effects.edges.filterMap Edge.target? := by
    rw [List.filterMap_filterMap]
    exact congrArg (List.filterMap · effects.edges) (funext (followed_edgeReference _ _))
  have data : (effects.dataTargets.map fun target => (⟨source, some target, .data⟩ : Reference)).filterMap
      Reference.followed? = [] := by
    rw [List.filterMap_map, List.filterMap_eq_nil_iff]
    exact fun target _ => rfl
  -- The table itself is data; its elements are followed.
  have table : ((effects.switch.map (switchReferences source)).getD []).filterMap
      Reference.followed? = effects.tableTargets := by
    unfold tableTargets
    cases effects.switch with
    | none => rfl
    | some switch =>
      change ((switch.targets.map fun target => (⟨source, some target, .code⟩ : Reference)).filterMap
        Reference.followed?) = switch.targets
      rw [List.filterMap_map]
      exact List.filterMap_some
  rw [references, List.filterMap_append, List.filterMap_append, edges, data, table, List.append_nil]

namespace Trace

def take (trace : Trace) (address : Address) (rest : List Address)
    (fresh : address ∉ trace.visited.addresses) : Trace :=
  { trace with pending := rest, visited := trace.visited.add address fresh }

theorem core_record (trace : Trace) (instruction : Instruction) (effects : Effects) :
    (trace.record instruction effects).database.core =
      (trace.database.memory, trace.database.heads,
        (effects.references instruction.address).foldl CrossReferences.insert
          trace.database.references) := by
  unfold record
  dsimp only
  rw [Database.core_foldl_addReference]
  cases effects.switch <;> rfl

theorem mem_pending_record {trace : Trace} {instruction : Instruction} {effects : Effects}
    {address : Address} : address ∈ (trace.record instruction effects).pending ↔
      address ∈ (Marking.mk instruction effects).successors ∨ address ∈ trace.pending := by
  unfold record Marking.successors
  dsimp only
  rw [Effects.followed_references]
  simp only [List.mem_append, List.mem_reverse, or_assoc]

end Trace

inductive Passes (mode : Mode) (database : Database) (address : Address) :
    List (Address × DecodeError) → Prop
  | known : database.heads.contains address = true → Passes mode database address []
  | failed {error : DecodeError} : database.heads.contains address = false →
      database.view.decodeAt address mode = .error error →
      Passes mode database address [(address, error)]
  | refused {instruction : Instruction} : database.heads.contains address = false →
      database.view.decodeAt address mode = .ok instruction →
      database.markHead? address instruction.length = none → Passes mode database address []

inductive Step (mode : Mode) : Trace → List Marking → Trace → Prop
  | seen {trace : Trace} {address : Address} {rest : List Address} :
      trace.pending = address :: rest → address ∈ trace.visited.addresses →
      Step mode trace [] { trace with pending := rest }
  | passed {trace : Trace} {address : Address} {rest : List Address}
      {failures : List (Address × DecodeError)} (fresh : address ∉ trace.visited.addresses) :
      trace.pending = address :: rest → Passes mode trace.database address failures →
      Step mode trace [] { trace.take address rest fresh with failures := trace.failures ++ failures }
  | marked {trace : Trace} {address : Address} {rest : List Address} {instruction : Instruction}
      {database : Database} (fresh : address ∉ trace.visited.addresses) :
      trace.pending = address :: rest → trace.database.heads.contains address = false →
      trace.database.view.decodeAt address mode = .ok instruction →
      trace.database.markHead? address instruction.length = some database →
      Step mode trace [⟨instruction, instruction.effects database.view mode⟩]
        ({ trace.take address rest fresh with database }.record instruction
          (instruction.effects database.view mode))

inductive Runs (mode : Mode) : Trace → List Marking → Trace → Prop
  | done (trace : Trace) : Runs mode trace [] trace
  | step {first middle last : Trace} {now later : List Marking} :
      Step mode first now middle → Runs mode middle later last → Runs mode first (now ++ later) last

section
variable {mode : Mode} {trace : Trace} {address : Address} {rest : List Address}

theorem exists_step_visit (next : trace.pending = address :: rest)
    (fresh : address ∉ trace.visited.addresses) :
    ∃ now, Step mode trace now ((trace.take address rest fresh).visit mode address) := by
  unfold Trace.visit
  split
  · next known =>
    have passes : Passes mode trace.database address [] := .known known
    have step := Step.passed fresh next passes
    rw [List.append_nil] at step
    exact ⟨[], step⟩
  · next unknown =>
    have unknown := Bool.eq_false_iff.mpr unknown
    split
    · next error fails => exact ⟨[], .passed fresh next (.failed unknown fails)⟩
    · next instruction decodes =>
      split
      · next refused =>
        have step := Step.passed fresh next (.refused unknown decodes refused)
        rw [List.append_nil] at step
        exact ⟨[], step⟩
      · next database accepted => exact ⟨_, .marked fresh next unknown decodes accepted⟩

theorem Trace.run_of_empty (empty : trace.pending = []) : trace.run mode = trace := by
  rw [run]
  split
  · rfl
  · next waiting => cases waiting.symm.trans empty

theorem Trace.run_of_seen (next : trace.pending = address :: rest)
    (seen : address ∈ trace.visited.addresses) :
    trace.run mode = { trace with pending := rest }.run mode := by
  rw [run]
  split
  · next empty => cases empty.symm.trans next
  · next waiting =>
    cases waiting.symm.trans next
    rw [dif_pos seen]

theorem Trace.run_of_fresh (next : trace.pending = address :: rest)
    (fresh : address ∉ trace.visited.addresses) :
    trace.run mode = ((trace.take address rest fresh).visit mode address).run mode := by
  rw [run]
  split
  · next empty => cases empty.symm.trans next
  · next waiting =>
    cases waiting.symm.trans next
    rw [dif_neg fresh]
    rfl

/-- The loop runs by steps, until nothing is pending. -/
theorem exists_runs_run (mode : Mode) (trace : Trace) :
    (∃ history, Runs mode trace history (trace.run mode)) ∧ (trace.run mode).pending = [] := by
  -- The cases of the loop: nothing pending, an address seen before, a new one.
  induction trace using Trace.run.induct mode with
  | case1 trace empty =>
    rw [Trace.run_of_empty empty]
    exact ⟨⟨[], .done trace⟩, empty⟩
  | case2 trace address rest next seen ih =>
    rw [Trace.run_of_seen next seen]
    obtain ⟨⟨history, runs⟩, empty⟩ := ih
    exact ⟨⟨_, .step (.seen next seen) runs⟩, empty⟩
  | case3 trace address rest next fresh ih =>
    rw [Trace.run_of_fresh next fresh]
    obtain ⟨⟨history, runs⟩, empty⟩ := ih
    obtain ⟨now, step⟩ := exists_step_visit next fresh
    exact ⟨⟨_, .step step runs⟩, empty⟩

end

/-- The loop with a bound on its steps, which can be evaluated. -/
def Trace.runFor (mode : Mode) : Nat → Trace → Trace
  | 0, trace => trace
  | bound + 1, trace =>
    match trace.pending with
    | [] => trace
    | address :: rest =>
      if seen : address ∈ trace.visited.addresses then
        runFor mode bound { trace with pending := rest }
      else runFor mode bound ((trace.take address rest seen).visit mode address)

/-- A bound that leaves nothing pending was large enough. -/
theorem Trace.run_eq_runFor {mode : Mode} (bound : Nat) {trace : Trace}
    (finished : (trace.runFor mode bound).pending = []) : trace.run mode = trace.runFor mode bound := by
  induction bound generalizing trace with
  | zero => exact run_of_empty finished
  | succ bound ih =>
    unfold runFor at finished ⊢
    cases next : trace.pending with
    | nil => exact run_of_empty next
    | cons address rest =>
      simp only [next] at finished ⊢
      split at finished
      · next seen => rw [run_of_seen next seen, ih finished, dif_pos seen]
      · next fresh => rw [run_of_fresh next fresh, ih finished, dif_neg fresh]

theorem Database.scan_eq_runFor {database : Database} {entries : List Address} {mode : Mode}
    (bound : Nat) (finished : ((Trace.start database entries).runFor mode bound).pending = []) :
    database.scan entries mode = ((Trace.start database entries).runFor mode bound).conclude mode := by
  rw [Database.scan, Trace.run_eq_runFor bound finished]

theorem exists_mem_concat {before : List Marking} {marking : Marking} {holds : Marking → Prop} :
    (∃ other ∈ before ++ [marking], holds other) ↔
      (∃ other ∈ before, holds other) ∨ holds marking := by
  simp only [List.mem_append, List.mem_singleton, or_and_right, exists_or, exists_eq_left]

theorem Runs.keeps {mode : Mode} {first last : Trace} {history : List Marking}
    (runs : Runs mode first history last) (invariant : List Marking → Trace → Prop)
    (kept : ∀ {before now : List Marking} {trace next : Trace}, invariant before trace →
      Step mode trace now next → invariant (before ++ now) next)
    (before : List Marking) (holds : invariant before first) :
    invariant (before ++ history) last := by
  induction runs generalizing before with
  | done trace => rwa [List.append_nil]
  | step step _ ih =>
    rw [← List.append_assoc]
    exact ih _ (kept holds step)

end H8
