import H8.View

/-! Jump tables.

A computed jump is recognized as a switch when the known instructions before
it read, in program order:

    cmp #N, Rx
    bhi default             for N + 1 cases, or bcc default for N cases
    extu, add Rx,Rx, shll   any number, scaling the index to the element size
    mov @(table,ERx), Ry    a word or a long
    jmp @ERy

and every element of the table can be read.
-/

set_option autoImplicit false

namespace H8

structure SwitchTable where
  /-- The address of the computed jump. -/
  jump : Address
  /-- The address of the first element. -/
  table : Address
  /-- The size of an element in bytes. -/
  elementSize : Nat
  count : Nat
  /-- Where values beyond the table lead. -/
  default : Address
  /-- The elements in order. -/
  targets : List Address
  deriving DecidableEq, Repr

/-- How many instructions, with the jump itself, a switch may span. -/
def switchWindow : Nat := 8

def maxSwitchCases : Nat := 256

namespace Switch

/-- The known instructions before an address, nearest first, each ending where
the one after it begins. -/
def preceding (view : View) (mode : Mode) : Nat → Address → List Instruction
  | 0, _ => []
  | count + 1, address =>
    match view.previous? address with
    | none => []
    | some previous =>
      match view.decodeAt previous mode with
      | .error _ => []
      | .ok instruction =>
        if instruction.next = address then instruction :: preceding view mode count previous
        else []

/-- Whether an operand is a part of the general register with a number. All
parts count: the index is compared as a byte, extended as a word and used as a
long. -/
def names (operand : Operand) (index : Fin 8) : Bool :=
  (operand.register?.bind Register.number) = some index

def scaleStep? (index : Fin 8) (instruction : Instruction) : Option Nat :=
  match instruction.mnemonic, instruction.operands with
  | .extu, [operand] => if names operand index then some 1 else none
  | .add, [source, destination] =>
    if names source index && source = destination then some 2 else none
  | .shll, [operand] | .shal, [operand] => if names operand index then some 2 else none
  | .shll, [.immediate 2 _, operand] | .shal, [.immediate 2 _, operand] =>
    if names operand index then some 4 else none
  | _, _ => none

def scaling (index : Fin 8) : List Instruction → Nat × List Instruction
  | [] => (1, [])
  | instruction :: rest =>
    match scaleStep? index instruction with
    | some factor =>
      let (scale, rest) := scaling index rest
      (factor * scale, rest)
    | none => (1, instruction :: rest)

structure Load where
  table : Address
  index : Fin 8
  elementSize : Nat
  deriving DecidableEq, Repr

def load? (mode : Mode) (pointer : Fin 8) (instruction : Instruction) : Option Load :=
  match instruction.mnemonic, instruction.width, instruction.operands with
  | .mov, some width, [.displaced base displacement _, .register destination] =>
    if width ≠ .byte && destination.number = some pointer then
      base.number.map fun index =>
        ⟨UInt32.ofInt displacement &&& mode.addressMask, index, width.bytes⟩
    else none
  | _, _, _ => none

/-- Recognize the branch that guards the table: whether its bound is itself a
case, and where it leads. -/
def guard? (instruction : Instruction) : Option (Bool × Address) :=
  match instruction.mnemonic, instruction.operands with
  | .branch .higher, .relative target _ _ :: _ => some (true, target)
  | .branch .carryClear, .relative target _ _ :: _ => some (false, target)
  | _, _ => none

def bound? (index : Fin 8) (instruction : Instruction) : Option Nat :=
  match instruction.mnemonic, instruction.operands with
  | .cmp, [.immediate value _, .register register] =>
    if register.number = some index then some value else none
  | _, _ => none

def pointer? (jump : Instruction) : Option (Fin 8) :=
  match jump.mnemonic, jump.operands with
  | .jmp, .indirect base :: _ => base.number
  | _, _ => none

def element? (view : View) (mode : Mode) (load : Load) (position : Nat) : Option Address :=
  let address := load.table + UInt32.ofNat (position * load.elementSize)
  if load.elementSize = 2 then (view.readWord? address).map (shortAbsolute mode)
  else (view.readLong? address).map fun value => UInt32.ofNat value &&& mode.addressMask

def table? (view : View) (mode : Mode) (jump : Address) (pointer : Fin 8) :
    List Instruction → Option SwitchTable
  | [] => none
  | first :: rest => do
    let load ← load? mode pointer first
    match scaling load.index rest with
    | (scale, branch :: comparison) =>
      if scale ≠ load.elementSize then none
      let (inclusive, default) ← guard? branch
      let bound ← bound? load.index (← comparison.head?)
      let count := if inclusive then bound + 1 else bound
      -- A table without cases and one that is implausibly long are no tables.
      if count = 0 || count > maxSwitchCases then none
      let targets ← (List.range count).mapM (element? view mode load)
      return ⟨jump, load.table, load.elementSize, count, default, targets⟩
    | _ => none

end Switch

def findSwitch? (view : View) (mode : Mode) (jump : Instruction) : Option SwitchTable :=
  match Switch.pointer? jump with
  | some pointer =>
    Switch.table? view mode jump.address pointer
      (Switch.preceding view mode (switchWindow - 1) jump.address)
  | none => none

end H8
