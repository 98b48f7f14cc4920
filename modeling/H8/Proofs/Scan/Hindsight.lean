import H8.Proofs.Scan.Consistency
import Mathlib.Data.List.Nodup

/-! What a finished scan would have recorded.

An instruction gets its references when it is marked, from what is known then.
Only the table of a computed jump can depend on that. Later knowledge never
takes a table away, and it adds one only where an instruction in front of the
jump was marked after the jump.
-/

set_option autoImplicit false

namespace H8

namespace Instruction
variable {view other : View} {mode : Mode} {instruction : Instruction}

theorem switch?_eq (view : View) (mode : Mode) (instruction : Instruction) :
    instruction.switch? view mode = findSwitch? view mode instruction := by
  by_cases computed : instruction.mnemonic = .jmp ∧ ∃ base rest, instruction.operands = .indirect base :: rest
  · obtain ⟨jumps, base, rest, indirect⟩ := computed
    unfold switch?
    rw [jumps, indirect]
  · have direct : Switch.pointer? instruction = none := by
      unfold Switch.pointer?
      split
      · next jumps indirect => exact absurd ⟨jumps, _, _, indirect⟩ computed
      · rfl
    unfold switch? findSwitch?
    rw [direct]
    split
    · next jumps indirect => exact absurd ⟨jumps, _, _, indirect⟩ computed
    · rfl

theorem references_effects_congr
    (same : findSwitch? view mode instruction = findSwitch? other mode instruction)
    (source : Address) : (instruction.effects view mode).references source =
      (instruction.effects other mode).references source := by
  unfold Effects.references effects
  simp only [switch?_eq, same]

end Instruction

theorem Effects.source_of_edgeReference? {source : Address} {explained : Bool} {edge : Edge}
    {reference : Reference} (made : edgeReference? source explained edge = some reference) :
    reference.source = source := by
  cases edge with
  | fallthrough | back => cases made
  | conditional => exact Option.some.inj made ▸ rfl
  | jump target =>
    cases target with
    | some target => exact Option.some.inj made ▸ rfl
    | none =>
      cases explained with
      | true => cases made
      | false => exact Option.some.inj made ▸ rfl
  | call target => cases target <;> exact Option.some.inj made ▸ rfl

theorem Effects.source_of_mem_references {effects : Effects} {source : Address}
    {reference : Reference} (member : reference ∈ effects.references source) :
    reference.source = source := by
  unfold references at member
  rcases List.mem_append.mp member with member | table
  · rcases List.mem_append.mp member with edge | data
    · obtain ⟨edge, -, made⟩ := List.mem_filterMap.mp edge
      exact source_of_edgeReference? made
    · obtain ⟨target, -, rfl⟩ := List.mem_map.mp data
      rfl
  · cases found : effects.switch with
    | none => simp [found] at table
    | some switch =>
      simp only [found, Option.map_some, Option.getD_some, switchReferences, List.mem_cons] at table
      rcases table with rfl | element
      · rfl
      · obtain ⟨target, -, rfl⟩ := List.mem_map.mp element
        rfl

theorem operands_of_jmp {bytes : List UInt8} {address : Address} {mode : Mode}
    {instruction : Instruction} (decoded : decode bytes address mode = .ok instruction)
    (jumps : instruction.mnemonic = .jmp) : instruction.operands.length = 1 := by
  have table : ∀ opcode ∈ Encoding.opcodes, opcode.mnemonic = .jmp → opcode.slots.length = 1 := by
    decide +kernel
  obtain ⟨opcode, member, -, built⟩ := exists_opcode decoded
  have mnemonic := Encoding.Opcode.mnemonic_of_build built (by simp [jumps])
  obtain ⟨operands, each, rfl⟩ := Encoding.Opcode.build_eq_ok_iff.mp built
  rw [Encoding.Opcode.assemble, ← each.length_eq]
  exact table opcode member (mnemonic.trans jumps)

theorem references_of_pointer? {bytes : List UInt8} {address : Address} {mode : Mode} {view : View}
    {instruction : Instruction} {pointer : Fin 8}
    (decoded : decode bytes address mode = .ok instruction)
    (through : Switch.pointer? instruction = some pointer)
    (missed : findSwitch? view mode instruction = none) (source : Address) :
    (instruction.effects view mode).references source = [⟨source, none, .code⟩] := by
  unfold Switch.pointer? at through
  split at through
  · next base rest jumps indirect =>
    have single := operands_of_jmp decoded jumps
    rw [indirect, List.length_cons, Nat.add_eq_right, List.length_eq_zero_iff] at single
    unfold Effects.references Instruction.effects
    simp [Instruction.switch?_eq, missed, Instruction.edges, Instruction.trapTargets,
      Instruction.target?, Instruction.dataTarget?, Effects.edgeReference?, jumps, indirect, single]
  · cases through

/-- What was known when an instruction got its effects: the instructions marked
up to then, itself included. -/
structure Informed (memory : Memory) (mode : Mode) (known : List Marking) (marking : Marking)
    (database : Database) : Prop where
  unchanged : database.memory = memory
  apart : database.heads.Apart
  heads : ∀ head, head ∈ database.heads.entries ↔ ∃ other ∈ known, other.head = head
  effects : marking.effects = marking.instruction.effects database.view mode

def Timely (memory : Memory) (mode : Mode) (history : List Marking) : Prop :=
  ∀ before marking after, history = before ++ marking :: after →
    ∃ database, Informed memory mode (before ++ [marking]) marking database

theorem Timely.concat {memory : Memory} {mode : Mode} {history : List Marking} {marking : Marking}
    (timely : Timely memory mode history)
    (informed : ∃ database, Informed memory mode (history ++ [marking]) marking database) :
    Timely memory mode (history ++ [marking]) := by
  intro before other after split
  rcases List.eq_nil_or_concat after with rfl | ⟨middle, last, rfl⟩
  · obtain ⟨rfl, rfl⟩ := List.append_singleton_inj.mp split
    exact informed
  · rw [List.concat_eq_append, ← List.cons_append, ← List.append_assoc] at split
    obtain ⟨rfl, -⟩ := List.append_singleton_inj.mp split
    exact timely before other middle rfl

section
variable {memory : Memory} {mode : Mode} {entries : List Address} {before now history : List Marking}
  {trace next : Trace}

theorem Timely.step (timely : Timely memory mode before) (recorded : Recorded memory mode before trace)
    (consistent : trace.database.Consistent memory mode) (step : Step mode trace now next) :
    Timely memory mode (before ++ now) := by
  have recorded' := recorded.step step
  cases step with
  | seen _ _ | passed _ _ _ => rwa [List.append_nil]
  | @marked address rest instruction marked fresh _ unknown decodes accepted =>
    rw [Database.decodeAt_view, consistent.unchanged] at decodes
    obtain rfl := address_of_decode (Memory.decode_of_decodeAt decodes)
    have apart := consistent.apart.mark? (Memory.proper_of_decodeAt decodes)
      (Database.markHead?_heads accepted).1
    have same := Database.markHead?_eq_some unknown accepted
    refine timely.concat ⟨marked, ?_, apart.1, fun head => ?_, rfl⟩
    · rw [same]
      exact consistent.unchanged
    · rw [apart.2 head, recorded.heads head, exists_mem_concat, or_comm]
      exact or_congr_right eq_comm

theorem timely_of_runs (runs : Runs mode (.start (.ofMemory memory) entries) history trace) :
    Recorded memory mode history trace ∧ trace.database.Consistent memory mode ∧
      Timely memory mode history := by
  have start := Database.core_start (.ofMemory memory) entries
  simp only [Database.core, Prod.mk.injEq] at start
  refine runs.keeps (fun history trace => Recorded memory mode history trace ∧
    trace.database.Consistent memory mode ∧ Timely memory mode history) ?_ [] ⟨recorded_start, ?_, ?_⟩
  · intro before now trace next holds step
    obtain ⟨recorded, consistent, timely⟩ := holds
    exact ⟨recorded.step step, consistent.step step, timely.step recorded consistent step⟩
  · exact (Database.consistent_ofMemory memory mode).of_same start.1 start.2.1
      (Database.switches_start _ entries)
  · intro before marking after split
    simp at split

end

/-- The table of a jump is found, but an instruction that leads to it was marked
after the jump. -/
structure Overlooked (database : Database) (mode : Mode) (marking : Marking) (later : List Marking) :
    Prop where
  found : ∃ table, findSwitch? database.view mode marking.instruction = some table
  late : ∃ other ∈ later, other.instruction ∈
    Switch.preceding database.view mode (switchWindow - 1) marking.address

section
variable {memory : Memory} {mode : Mode} {before after : List Marking} {marking : Marking}
  {early final : Database}

theorem Informed.extends (informed : Informed memory mode (before ++ [marking]) marking early)
    (consistent : final.Consistent memory mode)
    (heads : ∀ head, head ∈ final.heads.entries ↔
      ∃ other ∈ before ++ marking :: after, other.head = head) : early.view.Extends final.view := by
  refine Database.view_extends (consistent.unchanged.trans informed.unchanged.symm) informed.apart
    consistent.apart fun head member => (heads head).mpr ?_
  obtain ⟨other, known, same⟩ := (informed.heads head).mp member
  rw [List.append_cons]
  exact ⟨other, List.mem_append_left after known, same⟩

theorem Informed.recalls (informed : Informed memory mode (before ++ [marking]) marking early)
    (consistent : final.Consistent memory mode)
    (heads : ∀ head, head ∈ final.heads.entries ↔
      ∃ other ∈ before ++ marking :: after, other.head = head) {address previous : Address}
    (known : ∃ other ∈ before ++ [marking], other.address = previous)
    (found : final.view.previous? address = some previous) :
    early.view.previous? address = some previous := by
  obtain ⟨length, member, ends⟩ := consistent.apart.endingAt?_eq_some_iff.mp found
  obtain ⟨other, timely, rfl⟩ := known
  have inside : other.head ∈ final.heads.entries := by
    rw [heads, List.append_cons]
    exact ⟨other, List.mem_append_left after timely, rfl⟩
  obtain rfl : other.instruction.length = length :=
    congrArg Prod.snd (AddressMap.eq_of_key inside member rfl)
  exact informed.apart.endingAt?_eq_some_iff.mpr
    ⟨_, (informed.heads _).mpr ⟨other, timely, rfl⟩, ends⟩

/-- Hindsight finds the same table, or one that was overlooked. -/
theorem Informed.hindsight (informed : Informed memory mode (before ++ [marking]) marking early)
    (consistent : final.Consistent memory mode)
    (heads : ∀ head, head ∈ final.heads.entries ↔
      ∃ other ∈ before ++ marking :: after, other.head = head)
    (decodes : ∀ other ∈ before ++ marking :: after,
      memory.decodeAt other.address mode = .ok other.instruction) :
    findSwitch? early.view mode marking.instruction =
        findSwitch? final.view mode marking.instruction ∨
      findSwitch? early.view mode marking.instruction = none ∧ Overlooked final mode marking after := by
  have extended := informed.extends consistent heads
  cases earlier : findSwitch? early.view mode marking.instruction with
  | some table => exact .inl (findSwitch?_extends extended earlier).symm
  | none =>
    cases now : findSwitch? final.view mode marking.instruction with
    | none => exact .inl rfl
    | some table =>
      refine .inr ⟨rfl, ⟨table, now⟩, ?_⟩
      by_contra timely
      -- If all instructions on the way back were marked in time, nothing is new.
      have all : ∀ instruction ∈ Switch.preceding final.view mode (switchWindow - 1)
          marking.instruction.address, ∃ other ∈ before ++ [marking], other.address = instruction.address := by
        intro instruction member
        obtain ⟨⟨next, found⟩, decoded⟩ := Switch.mem_preceding member
        obtain ⟨length, head, -⟩ := consistent.apart.endingAt?_eq_some_iff.mp found
        obtain ⟨other, known, same⟩ := (heads _).mp head
        have address : other.address = instruction.address := congrArg Prod.fst same
        rw [List.append_cons] at known
        rcases List.mem_append.mp known with earlier | later
        · exact ⟨other, earlier, address⟩
        · have decoded' := decodes other (by rw [List.append_cons]; exact List.mem_append_right _ later)
          rw [Database.decodeAt_view, consistent.unchanged, ← address, decoded'] at decoded
          exact absurd ⟨other, later, Except.ok.inj decoded ▸ member⟩ timely
      rw [findSwitch?_eq_of_known extended (informed.recalls consistent heads) all, now] at earlier
      cases earlier

end

/-- The references recorded for a head are those that the finished database
implies, unless the head is a jump whose table was overlooked, which has one
reference to an unknown target. -/
theorem recorded_references_agree (memory : Memory) (entries : List Address) (mode : Mode) :
    let start := Trace.start (.ofMemory memory) entries
    let database := ((Database.ofMemory memory).scan entries mode).1
    (∃ history, Runs mode start history (start.run mode)) ∧
      ∀ history, Runs mode start history (start.run mode) → ∀ head ∈ database.heads.entries,
        ∃ before marking after, history = before ++ marking :: after ∧ marking.head = head ∧
          database.view.decodeAt head.1 mode = .ok marking.instruction ∧
          ((∀ reference, reference ∈ database.references.all ∧ reference.source = head.1 ↔
              reference ∈ (marking.instruction.effects database.view mode).references head.1) ∨
            Overlooked database mode marking after ∧
              ∀ reference, reference ∈ database.references.all ∧ reference.source = head.1 ↔
                reference = ⟨head.1, none, .code⟩) := by
  intro start database
  refine ⟨(exists_runs_run mode start).1, fun history runs head member => ?_⟩
  obtain ⟨recorded, -, timely⟩ := timely_of_runs runs
  have consistent : database.Consistent memory mode :=
    (Database.consistent_ofMemory memory mode).scan entries
  have core := Database.core_scan (.ofMemory memory) entries mode
  simp only [Database.core, Prod.mk.injEq] at core
  have heads (head : Address × Nat) : head ∈ database.heads.entries ↔
      ∃ marking ∈ history, marking.head = head := by
    rw [← recorded.heads head, core.2.1]
  obtain ⟨marking, known, rfl⟩ := (heads head).mp member
  obtain ⟨before, after, rfl⟩ := List.append_of_mem known
  have decodes := recorded.decodes marking known
  -- Only the instruction itself records references from its address.
  have own (reference : Reference) : reference ∈ database.references.all ∧
      reference.source = marking.address ↔ reference ∈ marking.references := by
    have all := recorded.references reference
    rw [← core.2.2] at all
    rw [all]
    constructor
    · rintro ⟨⟨other, member, made⟩, source⟩
      have same : other.address = marking.address :=
        (Effects.source_of_mem_references made).symm.trans source
      rwa [← List.inj_on_of_nodup_map recorded.once member known same]
    · intro made
      exact ⟨⟨marking, known, made⟩, Effects.source_of_mem_references made⟩
  obtain ⟨early, informed⟩ := timely before marking after rfl
  refine ⟨before, marking, after, rfl, rfl, ?_, ?_⟩
  · rw [Database.decodeAt_view, consistent.unchanged]
    exact decodes
  · dsimp only [Marking.head]
    simp only [own, Marking.references, informed.effects]
    rcases informed.hindsight consistent heads recorded.decodes with same | ⟨missed, overlooked⟩
    · apply Or.inl
      intro reference
      rw [Instruction.references_effects_congr same]
    · apply Or.inr
      refine ⟨overlooked, fun reference => ?_⟩
      obtain ⟨table, found⟩ := overlooked.found
      obtain ⟨pointer, through, -⟩ := findSwitch?_eq_some_iff.mp found
      rw [references_of_pointer? (Memory.decode_of_decodeAt decodes) through missed]
      exact List.mem_singleton

/-- A jump through a table of one element is reached before the comparison that
bounds the index. Its table is found afterwards and was not recorded. -/
theorem recorded_references_can_disagree :
    ¬ ∀ (memory : Memory) (entries : List Address) (mode : Mode),
      let database := ((Database.ofMemory memory).scan entries mode).1
      ∀ head ∈ database.heads.entries, ∀ instruction,
        database.view.decodeAt head.1 mode = .ok instruction → ∀ reference,
          reference ∈ database.references.all ∧ reference.source = head.1 ↔
            reference ∈ (instruction.effects database.view mode).references head.1 := by
  intro agree
  let memory : Memory := .ofImage #[0xA8, 0x01, 0x44, 0x06, 0x09, 0x00, 0x6F, 0x00, 0x00, 0x0C,
    0x59, 0x00, 0x00, 0x0A] 0
  let mode : Mode := ⟨.h8300h, .normal⟩
  let jump : Instruction := ⟨0x0A, 2, .jmp, none, [.indirect (.long 0)], false, false⟩
  have finished : ((Trace.start (.ofMemory memory) [0x0A, 0]).runFor mode 8).pending = [] := by
    decide +kernel
  have disagree := agree memory [0x0A, 0] mode
  rw [Database.scan_eq_runFor 8 finished] at disagree
  have facts : let database := (((Trace.start (.ofMemory memory) [0x0A, 0]).runFor mode 8).conclude mode).1
      (0x0A, 2) ∈ database.heads.entries ∧ database.view.decodeAt 0x0A mode = .ok jump ∧
        ⟨0x0A, none, .code⟩ ∈ database.references.all ∧
        ⟨0x0A, none, .code⟩ ∉ (jump.effects database.view mode).references 0x0A := by
    decide +kernel
  obtain ⟨head, decodes, recorded, missing⟩ := facts
  exact missing ((disagree (0x0A, 2) head jump decodes _).mp ⟨recorded, rfl⟩)

end H8
