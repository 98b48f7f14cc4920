import H8.Proofs.Decode.PrefixCode

/-! An instruction determines the opcode that it was decoded with.

Operands of different kinds come from different slots. No two opcodes have the
same mnemonic, width, length and kinds of operands, unless a constant that the
opcode implies tells them apart.
-/

set_option autoImplicit false

namespace H8

open Encoding

inductive Kind where
  | byteRegister
  | wordRegister
  | longRegister
  | control (register : Control)
  | list
  | immediate (width : Width)
  | absolute (field : FieldWidth)
  | indirect
  | displaced (field : FieldWidth)
  | increment
  | decrement
  | relative (field : FieldWidth)
  | vector
  | bit
  deriving DecidableEq, Repr

/-- The width of a field up to the name that the core gives to the longest. -/
def FieldWidth.plain : FieldWidth → FieldWidth
  | .bits32 => .bits24
  | field => field

def Register.kind : Register → Kind
  | .general .highByte _ | .general .lowByte _ => .byteRegister
  | .general .low _ | .general .upper _ => .wordRegister
  | .general .whole _ => .longRegister
  | .control register => .control register

def Operand.kind : Operand → Kind
  | .register name => name.kind
  | .registerList _ _ => .list
  | .immediate _ width => .immediate width
  | .absolute _ field => .absolute field.plain
  | .indirect _ => .indirect
  | .displaced _ _ field => .displaced field.plain
  | .postIncrement _ => .increment
  | .preDecrement _ => .decrement
  | .relative _ _ field => .relative field.plain
  | .vector _ => .vector
  | .bit _ => .bit

def Encoding.Slot.kind : Slot → Kind
  | .reg8 _ => .byteRegister
  | .reg16 _ => .wordRegister
  | .reg32 _ => .longRegister
  | .control register => .control register
  | .imm _ width => .immediate width
  | .const _ => .immediate .byte
  | .bit _ => .bit
  | .ind _ => .indirect
  | .postInc _ | .popped => .increment
  | .preDec _ | .pushed => .decrement
  | .disp16 _ _ => .displaced .bits16
  | .dispLong _ _ => .displaced .bits24
  | .abs8 _ => .absolute .bits8
  | .abs16 _ => .absolute .bits16
  | .abs24 _ | .absLong _ => .absolute .bits24
  | .rel8 _ => .relative .bits8
  | .rel16 _ => .relative .bits16
  | .vector _ => .vector
  | .listTo _ _ | .listFrom _ _ => .list

theorem FieldWidth.plain_longForm (mode : Mode) : (FieldWidth.longForm mode).plain = .bits24 := by
  unfold longForm
  split <;> rfl

theorem Register.kind_byte (field : Nat) : (Register.byte field).kind = .byteRegister := by
  unfold Register.byte
  split <;> rfl

theorem Register.kind_word (field : Nat) : (Register.word field).kind = .wordRegister := by
  unfold Register.word
  split <;> rfl

def Encoding.Slot.constant? : Slot → Option Nat
  | .const value => some value
  | _ => none

namespace Encoding.Slot
variable {mode : Mode} {next : Address} {field : Char → Nat} {slot : Slot} {operand : Operand}

theorem kind_of_operand (made : slot.operand mode next field = .ok operand) :
    operand.kind = slot.kind := by
  cases slot with
  | reg8 letter =>
    cases made
    exact Register.kind_byte _
  | reg16 letter =>
    cases made
    exact Register.kind_word _
  | control register =>
    simp only [Slot.operand] at made
    split at made
    · cases made
    · cases made
      rfl
  | dispLong letter base =>
    cases made
    exact congrArg Kind.displaced (FieldWidth.plain_longForm mode)
  | absLong letter =>
    cases made
    exact congrArg Kind.absolute (FieldWidth.plain_longForm mode)
  | listTo last count | listFrom first count =>
    simp only [Slot.operand] at made
    split at made
    · cases made
    · cases made
      rfl
  | _ =>
    cases made
    rfl

theorem operand_of_constant {value : Nat} (constant : slot.constant? = some value)
    (made : slot.operand mode next field = .ok operand) : operand = .immediate value .byte := by
  cases slot with
  | const other =>
    cases constant
    cases made
    rfl
  | _ => cases constant

end Encoding.Slot

namespace Encoding.Opcode

def constant? (opcode : Opcode) : Option Nat := opcode.slots.head?.bind Slot.constant?

def differs (first second : Opcode) : Bool :=
  !Nat.beq first.mnemonic.ctorIdx second.mnemonic.ctorIdx || first.width != second.width ||
    first.pattern.length != second.pattern.length ||
    first.slots.map Slot.kind != second.slots.map Slot.kind ||
    (first.constant?.isSome && second.constant?.isSome && first.constant? != second.constant?)

theorem differs_comm (first second : Opcode) : first.differs second = second.differs first := by
  have mnemonics : Nat.beq first.mnemonic.ctorIdx second.mnemonic.ctorIdx =
      Nat.beq second.mnemonic.ctorIdx first.mnemonic.ctorIdx := by
    rw [Bool.eq_iff_iff, Nat.beq_eq, Nat.beq_eq, eq_comm]
  unfold differs
  rw [mnemonics, bne_comm (a := first.width), bne_comm (a := first.pattern.length),
    bne_comm (a := first.slots.map Slot.kind), bne_comm (a := first.constant?),
    Bool.and_comm first.constant?.isSome]

theorem differs_eq_false {first second : Opcode}
    (mnemonics : first.mnemonic.ctorIdx = second.mnemonic.ctorIdx)
    (widths : first.width = second.width) (lengths : first.pattern.length = second.pattern.length)
    (kinds : first.slots.map Slot.kind = second.slots.map Slot.kind)
    (constants : ∀ one two, first.constant? = some one → second.constant? = some two → one = two) :
    first.differs second = false := by
  apply Bool.eq_false_iff.mpr
  intro differs
  simp only [Opcode.differs, mnemonics, widths, lengths, kinds, Nat.beq_refl, bne_self_eq_false,
    Bool.not_true, Bool.false_or, Bool.and_eq_true, Option.isSome_iff_exists, bne_iff_ne] at differs
  obtain ⟨⟨⟨one, firstHas⟩, two, secondHas⟩, unequal⟩ := differs
  rw [firstHas, secondHas, constants one two firstHas secondHas] at unequal
  exact unequal rfl

end Encoding.Opcode

theorem differs_of_ne {first second : Opcode} (left : first ∈ opcodes) (right : second ∈ opcodes)
    (different : first ≠ second) : first.differs second = true := by
  have pairwise : opcodes.Pairwise fun first second => first.differs second = true :=
    pairwise_of_allPairs (by decide +kernel)
  have : Std.Symm fun first second : Opcode => first.differs second = true :=
    ⟨fun first second differs => Opcode.differs_comm first second ▸ differs⟩
  exact pairwise.forall left right different

theorem mnemonic_of_condition : ∀ opcode ∈ opcodes, opcode.condition.isSome = true →
    opcode.mnemonic = .branch .always := by
  decide +kernel

namespace Encoding.Opcode
variable {opcode : Opcode} {bytes : List UInt8} {address : Address} {mode : Mode}
  {instruction : Instruction}

theorem ctorIdx_mnemonicOf (member : opcode ∈ opcodes) (bytes : List UInt8) :
    (opcode.mnemonicOf bytes).ctorIdx = opcode.mnemonic.ctorIdx := by
  cases condition : opcode.condition with
  | none => simp only [mnemonicOf, condition]
  | some letter =>
    rw [mnemonic_of_condition opcode member (by simp [condition])]
    simp only [mnemonicOf, condition]
    rfl

theorem kinds_of_build (built : opcode.build bytes address mode = .ok instruction) :
    instruction.operands.map Operand.kind = opcode.slots.map Slot.kind := by
  obtain ⟨operands, made, rfl⟩ := build_eq_ok_iff.mp built
  change operands.map Operand.kind = _
  clear built
  generalize opcode.slots = slots at made
  induction made with
  | nil => rfl
  | cons first _ ih => rw [List.map_cons, List.map_cons, Slot.kind_of_operand first, ih]

theorem head?_of_constant {value : Nat} (constant : opcode.constant? = some value)
    (built : opcode.build bytes address mode = .ok instruction) :
    instruction.operands.head? = some (.immediate value .byte) := by
  obtain ⟨operands, made, rfl⟩ := build_eq_ok_iff.mp built
  change operands.head? = _
  unfold constant? at constant
  generalize opcode.slots = slots at made constant
  cases made with
  | nil => cases constant
  | cons first _ => rw [List.head?_cons, Slot.operand_of_constant constant first]

/-- Whatever bytes it was built from, an instruction has one opcode. -/
theorem eq_of_build {first second : Opcode} (left : first ∈ opcodes) (right : second ∈ opcodes)
    {other : List UInt8} (built : first.build bytes address mode = .ok instruction)
    (alsoBuilt : second.build other address mode = .ok instruction) : first = second := by
  by_contra different
  have differs := differs_of_ne left right different
  -- All that tells two opcodes apart can be read off the instruction.
  have kinds : first.slots.map Slot.kind = second.slots.map Slot.kind :=
    (kinds_of_build built).symm.trans (kinds_of_build alsoBuilt)
  have lengths : first.pattern.length = second.pattern.length :=
    (length_of_build built).symm.trans (length_of_build alsoBuilt)
  have constants (one two : Nat) (firstHas : first.constant? = some one)
      (secondHas : second.constant? = some two) : one = two := by
    have heads := (head?_of_constant firstHas built).symm.trans
      (head?_of_constant secondHas alsoBuilt)
    exact (Operand.immediate.inj (Option.some.inj heads)).1
  obtain ⟨operands, -, rfl⟩ := build_eq_ok_iff.mp built
  obtain ⟨_, -, same⟩ := build_eq_ok_iff.mp alsoBuilt
  have widths : first.width = second.width := congrArg Instruction.width same
  have mnemonics : first.mnemonic.ctorIdx = second.mnemonic.ctorIdx := by
    rw [← ctorIdx_mnemonicOf left bytes, ← ctorIdx_mnemonicOf right other]
    exact congrArg (fun instruction => instruction.mnemonic.ctorIdx) same
  rw [Opcode.differs_eq_false mnemonics widths lengths kinds constants] at differs
  cases differs

end Encoding.Opcode

end H8
