import H8.Stack
import H8.View

/-! Frames recovered from prologues.

A prologue is read forward from the entry of a function: registers are saved,
the stack pointer is lowered and possibly copied to another register. It ends
at the first other instruction, and at any later address that something jumps
to.
-/

set_option autoImplicit false

namespace H8

def prologueBudget : Nat := 32

/-- Why a function has no frame. Plenty of functions have no prologue. -/
inductive FrameFailure where
  | budgetExceeded
  | noPrologue
  deriving DecidableEq, Repr

def FrameFailure.message : FrameFailure → String
  | .budgetExceeded => "prologue too long"
  | .noPrologue => "no recognized prologue"

namespace Instruction

def pointerSetup? (instruction : Instruction) : Option Register :=
  match instruction.mnemonic, instruction.operands with
  | .mov, [.register source, .register destination] =>
    if source.isStackPointer && !destination.isStackPointer then some destination else none
  | _, _ => none

def savesRegister (instruction : Instruction) : Bool :=
  match instruction.mnemonic, instruction.operands with
  | .push, _ | .stm, _ => true
  | .mov, [.register _, .preDecrement base] => base.isStackPointer
  | _, _ => false

def prologueRole? (instruction : Instruction) : Option Role :=
  if instruction.savesRegister then some .savedRegister
  else match instruction.mnemonic with
    | .sub | .subs | .dec | .add | .adds => some .localVariable
    | _ => none

end Instruction

inductive PrologueStep where
  | setPointer (register : Register)
  /-- Lower the stack pointer by a negative distance. -/
  | reserve (role : Role) (delta : Int)
  deriving DecidableEq, Repr

def Instruction.prologueStep? (instruction : Instruction) : Option PrologueStep :=
  match instruction.pointerSetup? with
  | some register => some (.setPointer register)
  | none =>
    match instruction.prologueRole?, instruction.stackDelta? with
    | some role, some delta => if delta < 0 then some (.reserve role delta) else none
    | _, _ => none

def prologueAt? (view : View) (mode : Mode) (entry address : Address) :
    Option (PrologueStep × Address) :=
  -- The entry itself is a target of its callers.
  if address ≠ entry && view.isCodeTarget address then none
  else match view.decodeAt address mode with
    | .error _ => none
    | .ok instruction => instruction.prologueStep?.map fun step => (step, instruction.next)

namespace Frame

def atEntry (mode : Mode) (entry : Address) : Frame where
  entry := entry
  returnSize := mode.returnSize
  regions := [⟨0, mode.returnSize, .returnAddress⟩]
  pointer := none
  stackOffset := 0
  prologueEnd := entry

def extend (frame : Frame) (step : PrologueStep) (next : Address) : Frame :=
  match step with
  | .setPointer register =>
    { frame with pointer := some ⟨register, frame.stackOffset⟩, prologueEnd := next }
  | .reserve role delta =>
    let offset := wrap32 (frame.stackOffset + delta)
    { frame with
      stackOffset := offset
      regions := frame.regions ++ [⟨offset, delta.natAbs, role⟩]
      prologueEnd := next }

/-- Follow the prologue from where the frame ends. With no budget left, a
further step is a failure. -/
def follow (view : View) (mode : Mode) : (budget : Nat) → Frame → Except FrameFailure Frame
  | 0, frame =>
    match prologueAt? view mode frame.entry frame.prologueEnd with
    | some _ => .error .budgetExceeded
    | none => .ok frame
  | budget + 1, frame =>
    match prologueAt? view mode frame.entry frame.prologueEnd with
    | some (step, next) => follow view mode budget (frame.extend step next)
    | none => .ok frame

end Frame

def buildFrame (view : View) (mode : Mode) (entry : Address) : Except FrameFailure Frame :=
  match prologueAt? view mode entry entry with
  | none => .error .noPrologue
  | some _ => Frame.follow view mode prologueBudget (.atEntry mode entry)

end H8
