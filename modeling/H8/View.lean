import H8.Decode
import H8.Frame.Basic

/-! What the analyses may know about a program.

A view answers questions about memory, known instructions, references and
frames, and cannot be changed through those answers.
-/

set_option autoImplicit false

namespace H8

structure View where
  /-- At most the given number of bytes from an address on. Unmapped
  addresses have none. -/
  read : Address → Nat → List UInt8
  isMapped : Address → Bool
  /-- The known instruction that ends exactly at an address. -/
  previous? : Address → Option Address
  /-- Whether a jump, branch or call is known to lead to an address. -/
  isCodeTarget : Address → Bool
  /-- The frame of the function around an address. -/
  frameAt? : Address → Option Frame

namespace View

def readWord? (view : View) (address : Address) : Option Nat :=
  match view.read address 2 with
  | [high, low] => some (256 * high.toNat + low.toNat)
  | _ => none

def readLong? (view : View) (address : Address) : Option Nat :=
  match view.read address 4 with
  | [a, b, c, d] => some (256 * (256 * (256 * a.toNat + b.toNat) + c.toNat) + d.toNat)
  | _ => none

def decodeAt (view : View) (address : Address) (mode : Mode) : Except DecodeError Instruction :=
  if view.isMapped address then decode (view.read address maxInstructionLength) address mode
  else .error (.outOfSegment address)

theorem decodeAt_eq_ok_iff {view : View} {address : Address} {mode : Mode} {instruction : Instruction} :
    view.decodeAt address mode = .ok instruction ↔ view.isMapped address = true ∧
      decode (view.read address maxInstructionLength) address mode = .ok instruction := by
  cases mapped : view.isMapped address <;> simp [decodeAt, mapped]

end View

end H8
