import H8.Assembly.Term

/-! Assembler directives and sections. -/

set_option autoImplicit false

namespace H8.Assembly

inductive Directive where
  /-- An instruction with the size of its encoding. -/
  | instruction (statement : Statement) (size : Nat)
  | data (bytes : List UInt8)
  /-- A table of pointers of the given size. -/
  | pointers (targets : List Term) (size : Nat)
  /-- Reserved space. -/
  | space (size : Nat)
  | label (label : Label)
  | origin (address : Address)
  | comment (text : String)
  deriving Repr

def Directive.size : Directive → Nat
  | .instruction _ size => size
  | .data bytes => bytes.length
  | .pointers targets size => targets.length * size
  | .space size => size
  | .label _ | .origin _ | .comment _ => 0

structure Located where
  location : Address
  directive : Directive
  deriving Repr

structure Section where
  name : String
  directives : List Located
  deriving Repr

end H8.Assembly
