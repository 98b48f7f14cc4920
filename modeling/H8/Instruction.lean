import H8.Mnemonic
import H8.Operand

/-! Decoded instructions. -/

set_option autoImplicit false

namespace H8

structure Instruction where
  address : Address
  /-- The length of the encoding in bytes. -/
  length : Nat
  mnemonic : Mnemonic
  width : Option Width
  operands : List Operand
  /-- The encoding has a four byte address or displacement field. -/
  longForm : Bool
  /-- The encoding exists on the H8S only. -/
  h8sOnly : Bool
  deriving DecidableEq, Repr

namespace Instruction

def next (instruction : Instruction) : Address :=
  instruction.address + UInt32.ofNat instruction.length

/-- The source operand, which exactly the two-operand instructions have. -/
def source? (instruction : Instruction) : Option Operand :=
  match instruction.operands with
  | [source, _] => some source
  | _ => none

def destination? (instruction : Instruction) : Option Operand :=
  instruction.operands.getLast?

def opcode (instruction : Instruction) : String :=
  match instruction.width with
  | some width => instruction.mnemonic.name ++ width.suffix
  | none => instruction.mnemonic.name

def isReturn (instruction : Instruction) : Bool :=
  instruction.mnemonic = .rts || instruction.mnemonic = .rte

def isTransfer (instruction : Instruction) : Bool :=
  instruction.mnemonic = .jmp || instruction.mnemonic = .jsr

/-- The number of bytes that an unsuffixed operation moves is four. -/
def effectiveWidth (instruction : Instruction) : Width :=
  instruction.width.getD .long

end Instruction

end H8
