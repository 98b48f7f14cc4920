import H8.Assembly.Term
import H8.Instruction

/-! Decoded instructions as assembly statements. Addresses that name a port
are written by its name. -/

set_option autoImplicit false

namespace H8.Assembly

def addressTerm (portName : Address → Option String) (isTransfer : Bool) (address : Address) :
    Term :=
  match portName address with
  | some name => .symbol name
  | none => if isTransfer then .codePointer address else .dataPointer address

def registerTerm (register : Register) : Term := .symbol register.name

def lastRegister (first : Register) (count : Nat) : Register :=
  .long ((first.number.map Fin.val).getD 0 + count - 1)

def operandTerm (portName : Address → Option String) (isTransfer : Bool) : Operand → Term
  | .register name => registerTerm name
  | .registerList first count =>
    .wrapped "(" [.joined (registerTerm first) "-" (registerTerm (lastRegister first count))] ")"
  | .immediate value _ => .marked "#" (.literal (.unsigned value))
  | .bit number => .marked "#" (.literal (.unsigned number))
  | .absolute address field =>
    .marked "@" (.tagged (addressTerm portName isTransfer address) field.suffix)
  | .indirect base => .marked "@" (registerTerm base)
  | .displaced base displacement field =>
    .marked "@" (.wrapped "("
      [.tagged (.literal (.signed displacement)) field.suffix, registerTerm base] ")")
  | .postIncrement base => .marked "@" (.tagged (registerTerm base) "+")
  | .preDecrement base => .marked "@-" (registerTerm base)
  | .relative target _ .bits8 => .codePointer target
  | .relative target _ field => .tagged (.codePointer target) field.suffix
  | .vector slot => .marked "@@" (.tagged (.dataPointer (UInt32.ofNat slot)) ":8")

def render (portName : Address → Option String) (instruction : Instruction) : Statement where
  opcode := instruction.opcode
  operands := instruction.operands.map (operandTerm portName instruction.isTransfer)

end H8.Assembly
