import H8.Proofs.Frame.Extent
import H8.Proofs.Switch.Registers

/-! What a frame pointer holds.

The prologue sets the frame pointer by a move of the stack pointer to another
register, and places on the stack are later told by the number of that register
alone. A move of words can go to the upper half of a register as well. The
register that addresses memory has the stack pointer in its low word exactly if
it did not.
-/

set_option autoImplicit false

namespace H8

open Encoding

structure Instruction.MovesPointer (instruction : Instruction) (source part : Part)
    (number : Fin 8) : Prop where
  mnemonic : instruction.mnemonic = .mov
  width : instruction.width = some part.width
  operands : instruction.operands =
    [.register (.general source 7), .register (.general part number)]

/-- The prologue sets the frame pointer by `mov.l sp,ERn` or `mov.w sp,Rn` for a
register other than the stack pointer, and what is addressed through the frame
pointer is addressed through that register. -/
def Frame.HoldsStackPointer (view : View) (mode : Mode) (frame : Frame) (pointer : FramePointer) :
    Prop :=
  ∃ (part : Part) (number : Fin 8), (part = .whole ∨ part = .low) ∧ number.val < 7 ∧
    pointer.register = .general part number ∧
    (∃ run, PrologueRun view mode frame.entry run frame.prologueEnd ∧
      ∃ instruction ∈ run, instruction.MovesPointer part part number) ∧
    ∀ (bytes : List UInt8) (address : Address) (other : Mode) (user : Instruction) (base : Register)
      (displacement : Int) (field : FieldWidth), decode bytes address other = .ok user →
      .displaced base displacement field ∈ user.operands → base.isStackPointer = false →
      (Operand.displaced base displacement field).isStackSlot (some frame) = true →
      base = .general .whole number

theorem Falls.decodeAt {view : View} {mode : Mode} {start stop : Address} {path : List Instruction}
    (falls : Falls view mode start path stop) :
    ∀ instruction ∈ path, view.decodeAt instruction.address mode = .ok instruction := by
  induction falls with
  | nil => simp
  | cons decoded _ _ ih =>
    intro instruction member
    rcases List.mem_cons.mp member with rfl | later
    · rw [View.address_of_decodeAt decoded]
      exact decoded
    · exact ih instruction later

theorem mem_of_mem_withOffsets {offset before : Int} {run : List Instruction}
    {instruction : Instruction} (member : (before, instruction) ∈ withOffsets offset run) :
    instruction ∈ run := by
  induction run generalizing offset with
  | nil => cases member
  | cons first rest ih =>
    rcases List.mem_cons.mp member with same | later
    · exact (Prod.mk.inj same).2 ▸ List.mem_cons_self
    · exact List.mem_cons_of_mem first (ih later)

theorem control_not_moved : ∀ opcode ∈ opcodes, opcode.mnemonic = .mov → ∀ slot ∈ opcode.slots,
    ∀ name ∈ Control.all, slot.kind ≠ .control name := by
  decide +kernel

section
variable {bytes : List UInt8} {address : Address} {mode : Mode} {instruction : Instruction}
  {register : Register}

theorem general_of_move (decoded : decode bytes address mode = .ok instruction)
    (moves : instruction.mnemonic = .mov) (named : .register register ∈ instruction.operands) :
    ∃ part number, register = .general part number := by
  cases register with
  | general part number => exact ⟨part, number, rfl⟩
  | control name =>
    obtain ⟨opcode, member, -, built⟩ := exists_opcode decoded
    have plain : opcode.mnemonic = .mov :=
      (Opcode.mnemonic_of_build built (by simp [moves])).trans moves
    have shown : Kind.control name ∈ opcode.slots.map Slot.kind := by
      rw [← Opcode.kinds_of_build built]
      exact List.mem_map_of_mem (f := Operand.kind) named
    obtain ⟨slot, present, same⟩ := List.mem_map.mp shown
    have listed : name ∈ Control.all := by cases name <;> decide
    exact absurd same (control_not_moved opcode member plain slot present name listed)

/-- A decoded copy of the stack pointer moves it whole, or its low word to either
half of a register. -/
theorem movesPointer_of_copies (decoded : decode bytes address mode = .ok instruction)
    (copies : instruction.CopiesStackPointer register) (other : register.isStackPointer = false) :
    ∃ part number, register = .general part number ∧
      ((part = .whole ∨ part = .low) ∧ number ≠ 7 ∧ instruction.MovesPointer part part number ∨
        part = .upper ∧ instruction.MovesPointer .low .upper number) := by
  obtain ⟨moves, source, pointer, operands⟩ := copies
  obtain ⟨part, number, rfl⟩ := general_of_move decoded moves (by rw [operands]; exact .tail _ (.head _))
  have wide : instruction.width = some part.width :=
    width_of_register decoded (.inl moves) (by rw [operands]; exact .tail _ (.head _))
  refine ⟨part, number, rfl, ?_⟩
  -- Both registers have the width of the move, which leaves one part or two.
  rcases Register.isStackPointer_iff.mp pointer with rfl | rfl
  · have width : some part.width = some .long := by
      rw [← wide]
      exact width_of_register decoded (.inl moves) (by rw [operands]; exact .head _)
    cases part with
    | whole => exact .inl ⟨.inl rfl, of_decide_eq_false other, moves, wide, operands⟩
    | low | upper | highByte | lowByte => cases width
  · have width : some part.width = some .word := by
      rw [← wide]
      exact width_of_register decoded (.inl moves) (by rw [operands]; exact .head _)
    cases part with
    | low => exact .inl ⟨.inr rfl, of_decide_eq_false other, moves, wide, operands⟩
    | upper => exact .inr ⟨rfl, moves, wide, operands⟩
    | whole | highByte | lowByte => cases width

end

/-- An operand that is on the stack through the frame pointer has its base register,
whatever part of it the frame pointer names. -/
theorem base_eq_of_isStackSlot {bytes : List UInt8} {address : Address} {mode : Mode}
    {user : Instruction} {base : Register} {displacement : Int} {field : FieldWidth} {frame : Frame}
    {pointer : FramePointer} {part : Part} {number : Fin 8}
    (decoded : decode bytes address mode = .ok user)
    (used : .displaced base displacement field ∈ user.operands)
    (other : base.isStackPointer = false)
    (slot : (Operand.displaced base displacement field).isStackSlot (some frame) = true)
    (held : frame.pointer = some pointer) (named : pointer.register = .general part number) :
    base = .general .whole number := by
  have whole : base.IsWhole := (operands_wellFormed_of_decode decoded _ used).1
  simp only [Operand.isStackSlot, Operand.isStackBased, other, Bool.false_or, Option.bind_some, held,
    decide_eq_true_eq] at slot
  apply whole.eq
  rw [slot, named]
  rfl

/-- The last copy of the stack pointer in the prologue sets the frame pointer. -/
theorem exists_copy_of_buildFrame {view : View} {mode : Mode} {entry : Address} {frame : Frame}
    {pointer : FramePointer} (built : buildFrame view mode entry = .ok frame)
    (held : frame.pointer = some pointer) :
    ∃ run, PrologueRun view mode frame.entry run frame.prologueEnd ∧ ∃ instruction ∈ run,
      instruction.CopiesStackPointer pointer.register ∧ pointer.register.isStackPointer = false := by
  rcases buildFrame_cases view mode entry with
    ⟨outcome, -⟩ | ⟨outcome, -⟩ | ⟨run, stop, path, -, -, -, outcome⟩
  · cases built.symm.trans outcome
  · cases built.symm.trans outcome
  · obtain rfl := Except.ok.inj (built.symm.trans outcome)
    refine ⟨run, path, ?_⟩
    obtain ⟨⟨offset, instruction⟩, member, sets⟩ :=
      List.mem_filterMap.mp (List.mem_of_getLast? held)
    obtain ⟨register, copies, rfl⟩ := Option.map_eq_some_iff.mp sets
    exact ⟨instruction, mem_of_mem_withOffsets member, Instruction.pointerSetup?_eq_some_iff.mp copies⟩

/-- A frame pointer holds the stack pointer exactly if it is no upper half of a
register. An upper half is set by `mov.w sp,En`, which leaves the low word as it
was. -/
theorem holdsStackPointer_iff {view : View} {mode : Mode} {entry : Address} {frame : Frame}
    {pointer : FramePointer} (built : buildFrame view mode entry = .ok frame)
    (held : frame.pointer = some pointer) :
    (frame.HoldsStackPointer view mode pointer ↔
        ∀ number, pointer.register ≠ .general .upper number) ∧
      ∀ number, pointer.register = .general .upper number →
        ∃ run, PrologueRun view mode frame.entry run frame.prologueEnd ∧
          ∃ instruction ∈ run, instruction.MovesPointer .low .upper number := by
  obtain ⟨run, path, instruction, member, copies, other⟩ := exists_copy_of_buildFrame built held
  have decoded := View.decode_of_decodeAt (path.straight.decodeAt instruction member)
  obtain ⟨part, number, named, moved⟩ := movesPointer_of_copies decoded copies other
  refine ⟨⟨?_, fun lower => ?_⟩, fun half upper => ?_⟩
  · rintro ⟨lower, number, shape, -, named, -⟩ half upper
    rcases shape with rfl | rfl
    all_goals cases named.symm.trans upper
  · rcases moved with ⟨shape, distinct, moves⟩ | ⟨rfl, -⟩
    · refine ⟨part, number, shape, by omega, named, ⟨run, path, instruction, member, moves⟩, ?_⟩
      intro bytes address mode user base displacement field decoded used other slot
      exact base_eq_of_isStackSlot decoded used other slot held named
    · exact absurd named (lower number)
  · obtain ⟨rfl, rfl⟩ := Register.general.inj (named.symm.trans upper)
    rcases moved with ⟨shape, -⟩ | ⟨-, moves⟩
    · rcases shape with same | same
      all_goals cases same
    · exact ⟨run, path, instruction, member, moves⟩

/-- A word prologue: a push and `mov.w sp,r6`. -/
theorem holdsStackPointer_iff_word :
    let view := (Database.ofMemory (.ofImage #[0x6D, 0xF6, 0x0D, 0x76, 0x54, 0x70] 0x100)).view
    let mode : Mode := ⟨.h8300h, .normal⟩
    let pointer : FramePointer := ⟨.general .low 6, -2⟩
    let frame : Frame := ⟨0x100, 2, [⟨0, 2, .returnAddress⟩, ⟨-2, 2, .savedRegister⟩], some pointer, -2,
      0x104⟩
    buildFrame view mode 0x100 = .ok frame ∧ frame.pointer = some pointer ∧
      frame.HoldsStackPointer view mode pointer := by
  intro view mode pointer frame
  have built : buildFrame view mode 0x100 = .ok frame := by decide +kernel
  refine ⟨built, rfl, (holdsStackPointer_iff built rfl).1.mpr ?_⟩
  intro number same
  cases same

/-- `mov.w sp,e0` makes `e0` the frame pointer, and then `@(4,er0)` counts as a place
on the stack, although the prologue does not touch the low word of `er0`. -/
theorem pointer_in_upper_half :
    let view := (Database.ofMemory (.ofImage #[0x0D, 0x78, 0x6F, 0x01, 0x00, 0x04, 0x54, 0x70]
      0x100)).view
    let mode : Mode := ⟨.h8300h, .advanced⟩
    let pointer : FramePointer := ⟨.general .upper 0, 0⟩
    let frame : Frame := ⟨0x100, 4, [⟨0, 4, .returnAddress⟩], some pointer, 0, 0x102⟩
    buildFrame view mode 0x100 = .ok frame ∧
      (view.decodeAt 0x102 mode).toOption.map Instruction.operands =
        some [.displaced (.general .whole 0) 4 .bits16, .register (.general .low 1)] ∧
      (Operand.displaced (.general .whole 0) 4 .bits16).isStackSlot (some frame) = true ∧
      ¬ frame.HoldsStackPointer view mode pointer := by
  intro view mode pointer frame
  have run : buildFrame view mode 0x100 = .ok frame ∧
      (view.decodeAt 0x102 mode).toOption.map Instruction.operands =
        some [.displaced (.general .whole 0) 4 .bits16, .register (.general .low 1)] ∧
      (Operand.displaced (.general .whole 0) 4 .bits16).isStackSlot (some frame) = true := by
    decide +kernel
  refine ⟨run.1, run.2.1, run.2.2, ?_⟩
  rintro ⟨part, number, shape, -, named, -⟩
  cases named
  rcases shape with same | same
  all_goals cases same

end H8
