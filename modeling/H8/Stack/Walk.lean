import H8.Effects

/-! The stack pointer along straight-line code. -/

set_option autoImplicit false

namespace H8

def defaultWalkBudget : Nat := 256

/-- Walk from an address to a target through fallthroughs only, adding up the
distances of the stack pointer. The walk fails at an address that cannot be
decoded, where control leaves for good, and when the budget is spent. -/
def stackWalk (view : View) (mode : Mode) (target : Address) :
    (budget : Nat) → Address → Int → Option Int
  | 0, address, offset => if address = target then some offset else none
  | budget + 1, address, offset =>
    if address = target then some offset
    else match view.decodeAt address mode with
      | .error _ => none
      | .ok instruction =>
        if (instruction.effects view mode).flow.fallsThrough then
          stackWalk view mode target budget instruction.next
            (wrap32 (offset + instruction.stackDelta?.getD 0))
        else none

/-- The stack pointer at an address, relative to that at the entry. -/
def stackOffsetAt? (view : View) (mode : Mode) (budget : Nat) (entry target : Address) :
    Option Int :=
  stackWalk view mode target budget entry 0

end H8
