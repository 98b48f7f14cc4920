import H8.Reference
import H8.Stack
import H8.Switch

/-! The effects of a single instruction: where control goes, what memory it
refers to and how it moves the stack pointer. Targets that are only known at
run time are reported as unknown.
-/

set_option autoImplicit false

namespace H8

inductive Edge where
  /-- On to the following instruction. -/
  | fallthrough (next : Address)
  | jump (target : Option Address)
  /-- Always paired with a fallthrough. -/
  | conditional (target : Address)
  /-- Always paired with a fallthrough. -/
  | call (target : Option Address)
  /-- Back from a subroutine or an exception. -/
  | back
  deriving DecidableEq, Repr

/-- How control leaves an instruction, as far as its function is concerned.
Calls and traps come back, so they are straight. -/
inductive Flow where
  | straight
  /-- Control may go elsewhere. The flag tells whether it may also go on. -/
  | branching (withNext : Bool)
  | returning
  deriving DecidableEq, Repr

def Flow.fallsThrough : Flow → Bool
  | .straight => true
  | .branching withNext => withNext
  | .returning => false

structure Effects where
  edges : List Edge
  /-- Addresses read or written through absolute operands and vectors. -/
  dataTargets : List Address
  stackDelta : Option Int
  /-- For each operand, whether it addresses a place on the stack. -/
  stackSlots : List Bool
  /-- The jump table that feeds a computed jump. -/
  switch : Option SwitchTable
  deriving DecidableEq, Repr

namespace Effects

def flow (effects : Effects) : Flow :=
  let falls := effects.edges.any fun
    | .fallthrough _ => true
    | _ => false
  let branches := effects.edges.any fun
    | .jump _ | .conditional _ => true
    | _ => false
  if effects.edges.contains .back then .returning
  else if branches then .branching falls
  else .straight

/-- The reference that an edge makes. A computed jump makes none of its own if
a table explains it. -/
def edgeReference? (source : Address) (explained : Bool) : Edge → Option Reference
  | .jump (some target) | .conditional target => some ⟨source, some target, .code⟩
  | .call (some target) => some ⟨source, some target, .subroutine⟩
  | .jump none => if explained then none else some ⟨source, none, .code⟩
  | .call none => some ⟨source, none, .subroutine⟩
  | .fallthrough _ | .back => none

/-- The references of a jump table: the table as data, its elements as code. -/
def switchReferences (source : Address) (switch : SwitchTable) : List Reference :=
  ⟨source, some switch.table, .data⟩ ::
    switch.targets.map fun target => ⟨source, some target, .code⟩

def references (effects : Effects) (source : Address) : List Reference :=
  effects.edges.filterMap (edgeReference? source effects.switch.isSome) ++
    effects.dataTargets.map (fun target => ⟨source, some target, .data⟩) ++
    (effects.switch.map (switchReferences source)).getD []

end Effects

def trapVector (mode : Mode) (number : Nat) : Address :=
  UInt32.ofNat ((8 + number) * mode.pointerSize)

namespace Instruction

def target? (instruction : Instruction) : Option Address :=
  match instruction.operands with
  | .relative target _ _ :: _ => some target
  | .absolute address _ :: _ => some address
  | _ => none

def edges (instruction : Instruction) : List Edge :=
  let onward := Edge.fallthrough instruction.next
  match instruction.mnemonic with
  | .rts | .rte => [.back]
  | .branch .never => [onward]
  | .branch .always => [.jump instruction.target?]
  | .branch _ => (instruction.target?.map Edge.conditional).toList ++ [onward]
  | .jmp => [.jump instruction.target?]
  | .bsr | .jsr => [.call instruction.target?, onward]
  | .trapa => [.call none, onward]
  | _ => [onward]

def trapTargets (mode : Mode) (instruction : Instruction) : List Address :=
  match instruction.mnemonic, instruction.operands with
  | .trapa, .immediate number _ :: _ => [trapVector mode number]
  | _, _ => []

/-- The data address of an operand. The address operand of a jump or call is
no data. -/
def dataTarget? (isTransfer : Bool) : Operand → Option Address
  | .absolute address _ => if isTransfer then none else some address
  | .vector slot => some (UInt32.ofNat slot)
  | _ => none

def switch? (view : View) (mode : Mode) (instruction : Instruction) : Option SwitchTable :=
  match instruction.mnemonic, instruction.operands with
  | .jmp, .indirect _ :: _ => findSwitch? view mode instruction
  | _, _ => none

def effects (view : View) (mode : Mode) (instruction : Instruction) : Effects where
  edges := instruction.edges
  dataTargets := instruction.trapTargets mode ++
    instruction.operands.filterMap (dataTarget? instruction.isTransfer)
  stackDelta := instruction.stackDelta?
  stackSlots := instruction.operands.map fun operand =>
    operand.isStackSlot (view.frameAt? instruction.address)
  switch := instruction.switch? view mode

end Instruction

end H8
