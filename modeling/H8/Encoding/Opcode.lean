import H8.Encoding.Pattern
import H8.Instruction

/-! Opcodes: what the opcode table says about one encoding.

An opcode has a bit pattern and, for each operand, a slot that says how the
operand is made from the fields of the pattern.
-/

set_option autoImplicit false

namespace H8.Encoding

/-- How an operand is made. Letters name fields of the pattern. -/
inductive Slot where
  | reg8 (field : Char)
  | reg16 (field : Char)
  | reg32 (field : Char)
  /-- A control register implied by the opcode. -/
  | control (register : Control)
  | imm (field : Char) (width : Width)
  /-- A constant implied by the opcode. -/
  | const (value : Nat)
  | bit (field : Char)
  | ind (base : Char)
  | postInc (base : Char)
  | preDec (base : Char)
  /-- `@sp+`, implied by the opcode. -/
  | popped
  /-- `@-sp`, implied by the opcode. -/
  | pushed
  | disp16 (field base : Char)
  /-- A displacement of 24 bits stored in four bytes. -/
  | dispLong (field base : Char)
  | abs8 (field : Char)
  | abs16 (field : Char)
  | abs24 (field : Char)
  /-- An address stored in four bytes, of which the highest is reserved. -/
  | absLong (field : Char)
  | rel8 (field : Char)
  | rel16 (field : Char)
  | vector (field : Char)
  /-- A register list given by its last register and one less than its size. -/
  | listTo (last count : Char)
  /-- A register list given by its first register and one less than its size. -/
  | listFrom (first count : Char)
  deriving DecidableEq, Repr

def Slot.isLong : Slot → Bool
  | .dispLong _ _ | .absLong _ => true
  | _ => false

structure Opcode where
  pattern : Pattern
  mnemonic : Mnemonic
  /-- The field of the branch condition, which replaces that of the mnemonic. -/
  condition : Option Char
  width : Option Width
  slots : List Slot
  core : Core
  deriving DecidableEq, Repr

def Opcode.fieldCount (opcode : Opcode) : Nat :=
  opcode.slots.length + (if opcode.condition.isSome then 1 else 0)

end H8.Encoding
