import H8.Operand

/-! Stack frames.

Offsets are relative to the stack pointer at the entry of the function, where
the return address lies. Saved registers and locals lie below it, incoming
arguments above the return address.
-/

set_option autoImplicit false

namespace H8

inductive Role where
  | savedRegister
  | localVariable
  | returnAddress
  | argument
  deriving DecidableEq, Repr

structure Region where
  offset : Int
  size : Nat
  role : Role
  deriving DecidableEq, Repr

def Region.contains (region : Region) (offset : Int) : Bool :=
  region.offset ≤ offset && offset < region.offset + region.size

/-- A register that holds a former value of the stack pointer. -/
structure FramePointer where
  register : Register
  offset : Int
  deriving DecidableEq, Repr

structure Frame where
  /-- The address of the function. -/
  entry : Address
  returnSize : Nat
  /-- The return address, then the regions in the order of the prologue. -/
  regions : List Region
  pointer : Option FramePointer
  /-- The stack pointer after the prologue. -/
  stackOffset : Int
  /-- The address of the first instruction after the prologue. -/
  prologueEnd : Address
  deriving DecidableEq, Repr

namespace Frame

def size (frame : Frame) : Nat := (min frame.stackOffset 0).natAbs

def classify (frame : Frame) (offset : Int) : Role :=
  if offset ≥ frame.returnSize then .argument
  else match frame.regions.find? fun region => region.contains offset with
    | some region => region.role
    | none => .localVariable

/-- The offset that an operand addresses, given the stack pointer at the
instruction that uses it. -/
def slotOffset? (frame : Frame) (operand : Operand) (stackOffset : Int) : Option Int :=
  match operand with
  | .displaced base displacement _ =>
    if base.isStackPointer then some (wrap32 (stackOffset + displacement))
    else match frame.pointer with
      | some pointer =>
        if base.number = pointer.register.number then
          some (wrap32 (pointer.offset + displacement))
        else none
      | none => none
  | _ => none

def savedCount (frame : Frame) : Nat :=
  frame.regions.countP fun region => region.role = .savedRegister

end Frame

/-- Whether an operand addresses a place on the stack, through the stack
pointer or through the frame pointer. -/
def Operand.isStackSlot (operand : Operand) (frame : Option Frame) : Bool :=
  operand.isStackBased ||
    match operand, frame.bind Frame.pointer with
    | .displaced base _ _, some pointer => base.number = pointer.register.number
    | _, _ => false

end H8
