import H8.Proofs.Decode.WellFormed
import H8.Proofs.Heads
import H8.Proofs.Switch.Idiom

/-! The registers of a recognized jump table.

Registers are compared by number, and five names share a number. Decoding
leaves fewer: a register of a move or a comparison is as wide as the
instruction, and memory is addressed through whole registers. What is left is
that a word may be loaded into the upper half of the register that the jump
goes through, and that the bound may be one of an upper half or a high byte.
-/

set_option autoImplicit false

namespace H8

open Encoding

def Kind.registerWidth? : Kind → Option Width
  | .byteRegister => some .byte
  | .wordRegister => some .word
  | .longRegister => some .long
  | _ => none

theorem Register.registerWidth?_kind (part : Part) (number : Fin 8) :
    (Register.general part number).kind.registerWidth? = some part.width := by
  cases part <;> rfl

/-- Moves and comparisons name registers of their own width. -/
theorem registerWidth?_of_slot : ∀ opcode ∈ opcodes, opcode.mnemonic = .mov ∨ opcode.mnemonic = .cmp →
    ∀ slot ∈ opcode.slots, ∀ width ∈ slot.kind.registerWidth?, opcode.width = some width := by
  decide +kernel

theorem width_of_register {bytes : List UInt8} {address : Address} {mode : Mode}
    {instruction : Instruction} (decoded : decode bytes address mode = .ok instruction)
    (mnemonic : instruction.mnemonic = .mov ∨ instruction.mnemonic = .cmp) {part : Part}
    {number : Fin 8} (named : .register (.general part number) ∈ instruction.operands) :
    instruction.width = some part.width := by
  obtain ⟨opcode, member, -, built⟩ := exists_opcode decoded
  have plain : opcode.mnemonic = instruction.mnemonic := by
    apply Opcode.mnemonic_of_build built
    rcases mnemonic with same | same <;> simp [same]
  have shown : (Register.general part number).kind ∈ opcode.slots.map Slot.kind := by
    rw [← Opcode.kinds_of_build built]
    exact List.mem_map_of_mem (f := Operand.kind) named
  obtain ⟨slot, present, same⟩ := List.mem_map.mp shown
  have width := registerWidth?_of_slot opcode member (plain ▸ mnemonic) slot present part.width
    (by rw [same, Register.registerWidth?_kind]; rfl)
  obtain ⟨operands, -, rfl⟩ := Opcode.build_eq_ok_iff.mp built
  exact width

theorem Switch.LeadsUp.decodes {view : View} {mode : Mode} {path : List Instruction}
    {address : Address} (leads : LeadsUp view mode path address) :
    ∀ instruction ∈ path,
      decode (view.read instruction.address maxInstructionLength) instruction.address mode =
        .ok instruction := by
  induction leads with
  | nil => exact fun _ member => nomatch member
  | cons _ decoded _ _ ih =>
    intro instruction member
    rcases List.mem_cons.mp member with rfl | earlier
    · exact View.decode_of_decodeAt decoded
    · exact ih instruction earlier

theorem Register.exists_part {register : Register} {number : Fin 8}
    (named : register.number = some number) : ∃ part, register = .general part number := by
  cases register with
  | general part other => exact ⟨part, by rw [Option.some.inj named]⟩
  | control name => cases named

theorem Register.IsWhole.eq {register : Register} {number : Fin 8} (whole : register.IsWhole)
    (named : register.number = some number) : register = .general .whole number := by
  obtain ⟨other, rfl⟩ := whole
  rw [Option.some.inj named]

/-- The load goes through the whole index register into a part of the register
that the jump goes through, and the comparison bounds a part of the index
register. -/
structure Switch.Code.Names (code : Code) (pointer index : Fin 8) (loaded bounded : Part) : Prop where
  load : ∃ (displacement : Int) (field : FieldWidth), code.load.operands =
    [.displaced (.general .whole index) displacement field, .register (.general loaded pointer)]
  comparison : ∃ (bound : Nat) (width : Width), code.comparison.operands =
    [.immediate bound width, .register (.general bounded index)]

/-- A recognized switch loads a part of the jump's register that is as wide as an
element, and bounds a part of the index register that is as wide as the
comparison. A word may go into the upper half, and the bound may be one of an
upper half or of a high byte. -/
theorem recognized_register_parts {view : View} {mode : Mode} {jump : Instruction}
    {table : SwitchTable} (found : findSwitch? view mode jump = some table) :
    ∃ (pointer index : Fin 8) (code : Switch.Code) (loaded bounded : Part),
      jump.JumpsThrough pointer ∧ Switch.LeadsUp view mode code.instructions jump.address ∧
      code.Spells mode pointer index table ∧ code.Names pointer index loaded bounded ∧
      (table.elementSize = 4 ∧ loaded = .whole ∨
        table.elementSize = 2 ∧ (loaded = .low ∨ loaded = .upper)) ∧
      (code.comparison.width = some .long ∧ bounded = .whole ∨
        code.comparison.width = some .word ∧ (bounded = .low ∨ bounded = .upper) ∨
        code.comparison.width = some .byte ∧ (bounded = .lowByte ∨ bounded = .highByte)) := by
  obtain ⟨pointer, index, code, through, -, leads, spells⟩ := exists_code_of_findSwitch? found
  obtain ⟨displacement, width, ⟨moves, sized, widths, base, destination, field, loads, addressed,
    written⟩, -, size⟩ := spells.load
  obtain ⟨bound, ⟨compares, immediate, register, operands, named⟩, -⟩ := spells.bound
  obtain ⟨loaded, rfl⟩ := Register.exists_part written
  obtain ⟨bounded, rfl⟩ := Register.exists_part named
  have decodedLoad := leads.decodes code.load (by simp [Switch.Code.instructions])
  have decodedComparison := leads.decodes code.comparison (by simp [Switch.Code.instructions])
  have whole : base.IsWhole := (operands_wellFormed_of_decode decodedLoad
    (.displaced base displacement field) (by simp [loads])).1
  obtain rfl := whole.eq addressed
  have loadWidth : some width = some loaded.width := by
    rw [← sized]
    exact width_of_register decodedLoad (.inl moves) (by rw [loads]; exact .tail _ (.head _))
  have comparisonWidth : code.comparison.width = some bounded.width :=
    width_of_register decodedComparison (.inr compares) (by rw [operands]; exact .tail _ (.head _))
  refine ⟨pointer, index, code, loaded, bounded, through, leads, spells,
    ⟨⟨displacement, field, loads⟩, bound, immediate, operands⟩, ?_, ?_⟩
  · rw [size, Option.some.inj loadWidth]
    rw [Option.some.inj loadWidth] at widths
    revert widths
    cases loaded <;> decide
  · rw [comparisonWidth]
    cases bounded <;> decide

/-- A table of one long, with as many scaling steps as there may be. Its load
writes the whole register. -/
theorem recognized_register_parts_long :
    let memory : Memory := .ofImage #[0xA8, 0x00, 0x42, 0x0E, 0x17, 0x50, 0x17, 0x70, 0x10, 0x30,
      0x10, 0x30, 0x01, 0x00, 0x6F, 0x00, 0x00, 0x14, 0x59, 0x00, 0x00, 0x00, 0x00, 0x12] 0
    let mode : Mode := ⟨.h8300h, .advanced⟩
    let view := ((Database.ofMemory memory).markAll
      [(0, 2), (2, 2), (4, 2), (6, 2), (8, 2), (10, 2), (12, 6), (18, 2)]).view
    let jump : Instruction := ⟨18, 2, .jmp, none, [.indirect (.general .whole 0)], false, false⟩
    findSwitch? view mode jump = some ⟨18, 20, 4, 1, 18, [18]⟩ ∧
      ∃ (pointer index : Fin 8) (code : Switch.Code) (bounded : Part), jump.JumpsThrough pointer ∧
        Switch.LeadsUp view mode code.instructions 18 ∧ code.Names pointer index .whole bounded := by
  intro memory mode view jump
  have found : findSwitch? view mode jump = some ⟨18, 20, 4, 1, 18, [18]⟩ := by decide +kernel
  refine ⟨found, ?_⟩
  obtain ⟨pointer, index, code, loaded, bounded, through, leads, -, names, loads, -⟩ :=
    recognized_register_parts found
  rcases loads with ⟨-, rfl⟩ | ⟨size, -⟩
  · exact ⟨pointer, index, code, bounded, through, leads, names⟩
  · cases size

/-- The word is loaded into `e0` and the bound is one of `r0h`, while the jump goes
through `er0` and the table is indexed with `er0`. -/
theorem recognized_through_other_parts :
    let memory : Memory := .ofImage #[0xA0, 0x01, 0x44, 0x06, 0x09, 0x00, 0x6F, 0x08, 0x00, 0x0C,
      0x59, 0x00, 0x00, 0x0A] 0
    let mode : Mode := ⟨.h8300h, .normal⟩
    let view := ((Database.ofMemory memory).markAll [(0, 2), (2, 2), (4, 2), (6, 4), (10, 2)]).view
    let jump : Instruction := ⟨10, 2, .jmp, none, [.indirect (.general .whole 0)], false, false⟩
    view.decodeAt 10 mode = .ok jump ∧
      findSwitch? view mode jump = some ⟨10, 12, 2, 1, 10, [10]⟩ ∧
      (Switch.preceding view mode (switchWindow - 1) 10).map Instruction.operands =
        [[.displaced (.general .whole 0) 12 .bits16, .register (.general .upper 0)],
          [.register (.general .low 0), .register (.general .low 0)],
          [.relative 10 6 .bits8],
          [.immediate 1 .byte, .register (.general .highByte 0)]] := by
  decide +kernel

end H8
