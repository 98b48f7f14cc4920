import H8.Effects
import H8.Proofs.Decode.WellFormed
import H8.Proofs.Scan.Consistency

/-! How control leaves a decoded instruction, and what it refers to.

Every branch names its target, so control leaves in one of five ways. Whether it
goes on and which references it makes can be read off these, together with the
data and the jump table of the instruction. A computed jump that a table explains
refers to the elements of the table, of which there is at least one.
-/

set_option autoImplicit false

namespace H8

open Encoding

/-- The ways in which control leaves an instruction. Known targets are addresses of
the mode. -/
inductive Leaves (mode : Mode) (next : Address) : List Edge → Prop where
  | onward : Leaves mode next [.fallthrough next]
  | jump {target : Option Address} (known : ∀ address ∈ target, address ≤ mode.addressMask) :
      Leaves mode next [.jump target]
  | conditional {target : Address} (known : target ≤ mode.addressMask) :
      Leaves mode next [.conditional target, .fallthrough next]
  | call {target : Option Address} (known : ∀ address ∈ target, address ≤ mode.addressMask) :
      Leaves mode next [.call target, .fallthrough next]
  | back : Leaves mode next [.back]

theorem Operand.eq_relative {operand : Operand} {field : FieldWidth}
    (relative : operand.kind = .relative field) :
    ∃ target displacement width, operand = .relative target displacement width := by
  cases operand with
  | relative target displacement width => exact ⟨target, displacement, width, rfl⟩
  | register name =>
    cases name with
    | control name => cases relative
    | general part number => cases part <;> cases relative
  | _ => cases relative

theorem kinds_of_branch : ∀ opcode ∈ opcodes,
    opcode.mnemonic.ctorIdx = (Mnemonic.branch .always).ctorIdx →
      opcode.slots.map Slot.kind = [.relative .bits8] ∨
        opcode.slots.map Slot.kind = [.relative .bits16] := by
  decide +kernel

section
variable {bytes : List UInt8} {address : Address} {mode : Mode} {instruction : Instruction}

theorem operands_of_branch (decoded : decode bytes address mode = .ok instruction)
    {condition : Condition} (branches : instruction.mnemonic = .branch condition) :
    ∃ target displacement field, instruction.operands = [.relative target displacement field] := by
  obtain ⟨opcode, member, -, built⟩ := exists_opcode decoded
  have group : opcode.mnemonic.ctorIdx = (Mnemonic.branch .always).ctorIdx := by
    obtain ⟨operands, -, rfl⟩ := Opcode.build_eq_ok_iff.mp built
    rw [← Opcode.ctorIdx_mnemonicOf member bytes, show opcode.mnemonicOf bytes = _ from branches]
    rfl
  obtain ⟨field, single⟩ : ∃ field, instruction.operands.map Operand.kind = [.relative field] := by
    rw [Opcode.kinds_of_build built]
    rcases kinds_of_branch opcode member group with same | same
    all_goals exact ⟨_, same⟩
  obtain ⟨operand, operands, relative⟩ := List.map_eq_singleton_iff.mp single
  obtain ⟨target, displacement, width, rfl⟩ := Operand.eq_relative relative
  exact ⟨target, displacement, width, operands⟩

theorem target?_le (decoded : decode bytes address mode = .ok instruction) :
    ∀ target ∈ instruction.target?, target ≤ mode.addressMask := by
  have operands := operands_wellFormed_of_decode decoded
  intro target known
  unfold Instruction.target? at known
  split at known
  · next first displacement field _ given =>
    obtain rfl := Option.mem_some.mp known
    exact (operands (.relative first displacement field) (by rw [given]; exact .head _)).1
  · next first field _ given =>
    obtain rfl := Option.mem_some.mp known
    exact operands (.absolute first field) (by rw [given]; exact .head _)
  · cases known

theorem leaves_of_decode (decoded : decode bytes address mode = .ok instruction) :
    Leaves mode instruction.next instruction.edges := by
  have known := target?_le decoded
  cases mnemonic : instruction.mnemonic with
  | rts | rte =>
    simp only [Instruction.edges, mnemonic]
    exact .back
  | jmp =>
    simp only [Instruction.edges, mnemonic]
    exact .jump known
  | bsr | jsr =>
    simp only [Instruction.edges, mnemonic]
    exact .call known
  | trapa =>
    simp only [Instruction.edges, mnemonic]
    exact .call (by simp)
  | branch condition =>
    obtain ⟨target, displacement, field, operands⟩ := operands_of_branch decoded mnemonic
    have found : instruction.target? = some target := by simp [Instruction.target?, operands]
    cases condition with
    | never =>
      simp only [Instruction.edges, mnemonic]
      exact .onward
    | always =>
      simp only [Instruction.edges, mnemonic]
      exact .jump known
    | _ =>
      simp only [Instruction.edges, mnemonic, found]
      exact .conditional (known target found)
  | _ =>
    simp only [Instruction.edges, mnemonic]
    exact .onward

end

theorem Leaves.fallsThrough_iff {mode : Mode} {next : Address} {effects : Effects}
    (leaves : Leaves mode next effects.edges) :
    effects.flow.fallsThrough = true ↔ ∃ address, .fallthrough address ∈ effects.edges := by
  unfold Effects.flow
  generalize effects.edges = edges at leaves
  cases leaves <;> simp [Flow.fallsThrough]

namespace Effects
variable {effects : Effects} {source : Address} {reference : Reference}

inductive Refers (effects : Effects) (source : Address) : Reference → Prop where
  | jump {target : Address} (leaves : .jump (some target) ∈ effects.edges) :
      Refers effects source ⟨source, some target, .code⟩
  | conditional {target : Address} (leaves : .conditional target ∈ effects.edges) :
      Refers effects source ⟨source, some target, .code⟩
  | computed (leaves : .jump none ∈ effects.edges) (unexplained : effects.switch = none) :
      Refers effects source ⟨source, none, .code⟩
  | call {target : Option Address} (leaves : .call target ∈ effects.edges) :
      Refers effects source ⟨source, target, .subroutine⟩
  | data {target : Address} (used : target ∈ effects.dataTargets) :
      Refers effects source ⟨source, some target, .data⟩
  | table {table : SwitchTable} (explained : effects.switch = some table) :
      Refers effects source ⟨source, some table.table, .data⟩
  | element {table : SwitchTable} {target : Address} (explained : effects.switch = some table)
      (listed : target ∈ table.targets) : Refers effects source ⟨source, some target, .code⟩

theorem refers_of_edge {edge : Edge} (leaves : edge ∈ effects.edges)
    (made : edgeReference? source effects.switch.isSome edge = some reference) :
    effects.Refers source reference := by
  cases edge with
  | fallthrough | back => cases made
  | conditional target =>
    cases made
    exact .conditional leaves
  | call target =>
    cases target <;> cases made <;> exact .call leaves
  | jump target =>
    cases target with
    | some target =>
      cases made
      exact .jump leaves
    | none =>
      cases explained : effects.switch with
      | some table => simp [edgeReference?, explained] at made
      | none =>
        simp only [edgeReference?, explained, Option.isSome_none, Bool.false_eq_true, if_false,
          Option.some.injEq] at made
        subst made
        exact .computed leaves explained

theorem mem_references_iff : reference ∈ effects.references source ↔ effects.Refers source reference := by
  have tables : reference ∈ (effects.switch.map (switchReferences source)).getD [] ↔
      ∃ table, effects.switch = some table ∧ (reference = ⟨source, some table.table, .data⟩ ∨
        ∃ target ∈ table.targets, reference = ⟨source, some target, .code⟩) := by
    cases effects.switch <;> simp [switchReferences, eq_comm]
  unfold references
  rw [List.mem_append, List.mem_append, List.mem_filterMap, List.mem_map, tables]
  constructor
  · rintro ((⟨edge, leaves, made⟩ | ⟨target, used, rfl⟩) | ⟨table, explained, rfl | ⟨target, listed, rfl⟩⟩)
    · exact refers_of_edge leaves made
    · exact .data used
    · exact .table explained
    · exact .element explained listed
  · intro refers
    cases refers with
    | jump leaves => exact .inl (.inl ⟨_, leaves, rfl⟩)
    | conditional leaves => exact .inl (.inl ⟨_, leaves, rfl⟩)
    | computed leaves unexplained => exact .inl (.inl ⟨_, leaves, by simp [edgeReference?, unexplained]⟩)
    | @call target leaves => exact .inl (.inl ⟨_, leaves, by cases target <;> rfl⟩)
    | data used => exact .inl (.inr ⟨_, used, rfl⟩)
    | table explained => exact .inr ⟨_, explained, .inl rfl⟩
    | element explained listed => exact .inr ⟨_, explained, .inr ⟨_, listed, rfl⟩⟩

/-- Jumps and branches refer to code, a computed jump through the elements of its
table. -/
theorem exists_code_iff (tables : ∀ table, effects.switch = some table →
      .jump none ∈ effects.edges ∧ ∃ target, target ∈ table.targets) :
    (∃ reference ∈ effects.references source, reference.kind = .code) ↔
      (∃ target, .jump target ∈ effects.edges) ∨ ∃ target, .conditional target ∈ effects.edges := by
  simp only [mem_references_iff]
  constructor
  · rintro ⟨reference, refers, code⟩
    cases refers with
    | jump leaves | computed leaves => exact .inl ⟨_, leaves⟩
    | conditional leaves => exact .inr ⟨_, leaves⟩
    | element explained _ => exact .inl ⟨none, (tables _ explained).1⟩
    | call | data | table => cases code
  · rintro (⟨target | target, leaves⟩ | ⟨target, leaves⟩)
    · cases explained : effects.switch with
      | none => exact ⟨_, .computed leaves explained, rfl⟩
      | some table =>
        obtain ⟨target, listed⟩ := (tables table explained).2
        exact ⟨_, .element explained listed, rfl⟩
    · exact ⟨_, .jump leaves, rfl⟩
    · exact ⟨_, .conditional leaves, rfl⟩

theorem exists_subroutine_iff :
    (∃ reference ∈ effects.references source, reference.kind = .subroutine) ↔
      ∃ target, .call target ∈ effects.edges := by
  simp only [mem_references_iff]
  constructor
  · rintro ⟨reference, refers, subroutine⟩
    cases refers with
    | call leaves => exact ⟨_, leaves⟩
    | _ => cases subroutine
  · rintro ⟨target, leaves⟩
    exact ⟨_, .call leaves, rfl⟩

theorem mem_references_unknown_code_iff : ⟨source, none, .code⟩ ∈ effects.references source ↔
    .jump none ∈ effects.edges ∧ effects.switch = none := by
  rw [mem_references_iff]
  constructor
  · intro refers
    cases refers with
    | computed leaves unexplained => exact ⟨leaves, unexplained⟩
  · rintro ⟨leaves, unexplained⟩
    exact .computed leaves unexplained

theorem mem_references_unknown_subroutine_iff :
    ⟨source, none, .subroutine⟩ ∈ effects.references source ↔ .call none ∈ effects.edges := by
  rw [mem_references_iff]
  constructor
  · intro refers
    cases refers with
    | call leaves => exact leaves
  · exact .call

theorem mem_references_data_iff {target : Address} :
    ⟨source, some target, .data⟩ ∈ effects.references source ↔
      target ∈ effects.dataTargets ∨ ∃ table, effects.switch = some table ∧ table.table = target := by
  rw [mem_references_iff]
  constructor
  · intro refers
    cases refers with
    | data used => exact .inl used
    | table explained => exact .inr ⟨_, explained, rfl⟩
  · rintro (used | ⟨table, explained, rfl⟩)
    · exact .data used
    · exact .table explained

end Effects

namespace Instruction
variable {view : View} {mode : Mode} {instruction : Instruction} {table : SwitchTable}

theorem edges_of_switch? (found : instruction.switch? view mode = some table) :
    instruction.edges = [.jump none] := by
  unfold switch? at found
  split at found
  · next base rest jumps indirect => simp [edges, target?, jumps, indirect]
  · cases found

theorem exists_target_of_switch? (found : instruction.switch? view mode = some table) :
    ∃ target, target ∈ table.targets := by
  obtain ⟨-, read⟩ := read_of_findSwitch? (findSwitch?_of_switch? found)
  apply List.exists_mem_of_length_pos
  rw [read.count]
  exact read.pos

end Instruction

/-- Control leaves a decoded instruction in one of five ways, and goes on if there is
an edge to the following one. Only a jump with an unknown target has a table. An
instruction refers to code exactly if it jumps or branches, and to a subroutine
exactly if it calls; to an unknown place exactly if the target is unknown and no
table explains it; and to all of its data and its table. -/
theorem effects_shaped_by_edges {bytes : List UInt8} {address : Address} {mode : Mode}
    {instruction : Instruction} (decoded : decode bytes address mode = .ok instruction) (view : View) :
    let effects := instruction.effects view mode
    Leaves mode instruction.next effects.edges ∧
    (effects.flow.fallsThrough = true ↔ ∃ next, .fallthrough next ∈ effects.edges) ∧
    (∀ table, effects.switch = some table → effects.edges = [.jump none]) ∧
    ∀ source : Address,
      ((∃ reference ∈ effects.references source, reference.kind = .code) ↔
        (∃ target, .jump target ∈ effects.edges) ∨ ∃ target, .conditional target ∈ effects.edges) ∧
      ((∃ reference ∈ effects.references source, reference.kind = .subroutine) ↔
        ∃ target, .call target ∈ effects.edges) ∧
      (⟨source, none, .code⟩ ∈ effects.references source ↔
        .jump none ∈ effects.edges ∧ effects.switch = none) ∧
      (⟨source, none, .subroutine⟩ ∈ effects.references source ↔
        .call none ∈ effects.edges ∧ effects.switch = none) ∧
      ∀ target, ⟨source, some target, .data⟩ ∈ effects.references source ↔
        target ∈ effects.dataTargets ∨ ∃ table, effects.switch = some table ∧ table.table = target := by
  intro effects
  have leaves : Leaves mode instruction.next effects.edges := leaves_of_decode decoded
  have single (table : SwitchTable) (explained : effects.switch = some table) :
      effects.edges = [.jump none] := Instruction.edges_of_switch? explained
  refine ⟨leaves, leaves.fallsThrough_iff, single, fun source => ⟨Effects.exists_code_iff ?_,
    Effects.exists_subroutine_iff, Effects.mem_references_unknown_code_iff, ?_,
    fun target => Effects.mem_references_data_iff⟩⟩
  · intro table explained
    exact ⟨single table explained ▸ .head _, Instruction.exists_target_of_switch? explained⟩
  · rw [Effects.mem_references_unknown_subroutine_iff, iff_self_and]
    -- A call has no table, since the edges of a computed jump hold no call.
    intro calls
    refine Option.eq_none_iff_forall_ne_some.mpr fun table explained => ?_
    simp [single table explained] at calls

/-- A computed jump through a table of one word, which explains it. -/
theorem effects_shaped_by_edges_table :
    let memory : Memory := .ofImage #[0xA8, 0x01, 0x44, 0x06, 0x09, 0x00, 0x6F, 0x00, 0x00, 0x0C, 0x59,
      0x00, 0x00, 0x0A] 0
    let mode : Mode := ⟨.h8300h, .normal⟩
    let view := ((Database.ofMemory memory).markAll [(0, 2), (2, 2), (4, 2), (6, 4), (10, 2)]).view
    ∃ jump, decode [0x59, 0x00] 10 mode = .ok jump ∧
      (jump.effects view mode).switch = some ⟨10, 12, 2, 1, 10, [10]⟩ ∧
      (jump.effects view mode).edges = [.jump none] ∧
      (jump.effects view mode).flow.fallsThrough = false ∧
      ⟨10, none, .code⟩ ∉ (jump.effects view mode).references 10 ∧
      (∃ reference ∈ (jump.effects view mode).references 10, reference.kind = .code) ∧
      ⟨10, some 12, .data⟩ ∈ (jump.effects view mode).references 10 := by
  intro memory mode view
  let jump : Instruction := ⟨10, 2, .jmp, none, [.indirect (.general .whole 0)], false, false⟩
  have decoded : decode [0x59, 0x00] 10 mode = .ok jump :=
    (decode_eq_decodeWith ..).trans (by decide +kernel)
  have explained : (jump.effects view mode).switch = some ⟨10, 12, 2, 1, 10, [10]⟩ := by
    decide +kernel
  obtain ⟨-, falls, single, referring⟩ := effects_shaped_by_edges decoded view
  have edges := single _ explained
  obtain ⟨code, -, unknown, -, data⟩ := referring 10
  refine ⟨jump, decoded, explained, edges, ?_, ?_, code.mpr (.inl ⟨none, by simp [edges]⟩),
    (data 12).mpr (.inr ⟨_, explained, rfl⟩)⟩
  · rw [Bool.eq_false_iff, ne_eq, falls, edges]
    simp
  · rw [unknown, explained]
    simp

end H8
