import H8.Instruction

/-! How instructions move the stack pointer.

The stack grows downwards, so pushing gives a negative distance. A constant
that is added to the stack pointer counts in the signed range of the
operation's width.
-/

set_option autoImplicit false

namespace H8

namespace Instruction

def writesStackPointer (instruction : Instruction) : Bool :=
  match instruction.destination?.bind Operand.register? with
  | some register => register.isStackPointer
  | none => false

def immediateSource? (instruction : Instruction) : Option Nat :=
  instruction.source?.bind Operand.immediate?

def transferDelta? (width : Width) : Operand → Option Int
  | .preDecrement base => if base.isStackPointer then some (-(width.bytes : Int)) else none
  | .postIncrement base => if base.isStackPointer then some width.bytes else none
  | _ => none

def listBytes? : Operand → Option Int
  | .registerList _ count => some (4 * (count : Int))
  | _ => none

def stackDelta? (instruction : Instruction) : Option Int :=
  let width := instruction.effectiveWidth
  let adjustment (sign : Int) : Option Int :=
    if instruction.writesStackPointer then
      instruction.immediateSource?.map fun value => width.wrap (sign * value)
    else none
  match instruction.mnemonic with
  -- A push is named by its register, not by the stack pointer it goes through.
  | .push => some (-(width.bytes : Int))
  | .pop => some width.bytes
  | .stm => (instruction.operands.findSome? listBytes?).map (- ·)
  | .ldm => instruction.operands.findSome? listBytes?
  | .add | .adds | .inc => adjustment 1
  | .sub | .subs | .dec => adjustment (-1)
  | .mov | .stc | .ldc => instruction.operands.findSome? (transferDelta? width)
  | _ => none

end Instruction

end H8
