import H8.Register

/-! Decoded operands.

The addresses of absolute and relative operands are already resolved in the
address space of the mode they were decoded in.
-/

set_option autoImplicit false

namespace H8

inductive Operand where
  | register (name : Register)
  /-- Consecutive whole registers, as moved by `ldm` and `stm`. -/
  | registerList (first : Register) (count : Nat)
  | immediate (value : Nat) (width : Width)
  | absolute (address : Address) (field : FieldWidth)
  /-- `@ERn` -/
  | indirect (base : Register)
  /-- `@(d,ERn)` -/
  | displaced (base : Register) (displacement : Int) (field : FieldWidth)
  /-- `@ERn+` -/
  | postIncrement (base : Register)
  /-- `@-ERn` -/
  | preDecrement (base : Register)
  /-- A branch target, with its distance from the following instruction. -/
  | relative (target : Address) (displacement : Int) (field : FieldWidth)
  /-- `@@aa:8`, a pointer stored in the vector area. -/
  | vector (slot : Nat)
  | bit (number : Nat)
  deriving DecidableEq, Repr

namespace Operand

def register? : Operand → Option Register
  | .register name => some name
  | _ => none

def immediate? : Operand → Option Nat
  | .immediate value _ => some value
  | _ => none

def isStackBased : Operand → Bool
  | .displaced base _ _ => base.isStackPointer
  | _ => false

end Operand

end H8
