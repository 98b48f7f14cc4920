import H8.Frame.Prologue

/-! Telling code from data. -/

set_option autoImplicit false

namespace H8

def returnSequences : List (List UInt8) := [[0x56, 0x70], [0x54, 0x70]]

/-- Whether bytes begin with a return instruction, without decoding them. -/
def isReturnSequence (bytes : List UInt8) : Bool :=
  returnSequences.any fun sequence => sequence.isPrefixOf bytes

inductive Sanity where
  /-- Only what every real instruction has. -/
  | basic
  /-- No encoding that compilers never produce. -/
  | strict
  /-- No padding and no erased memory either. -/
  | paranoid
  deriving DecidableEq, Repr

namespace Sanity

/-- The level with a number. Numbers above two mean the highest level. -/
def ofLevel : Nat → Sanity
  | 0 => .basic
  | 1 => .strict
  | _ => .paranoid

end Sanity

/-- Whether `ldm` and `stm` can move a register list: two registers start at an
even one, three or four at the first or the fifth. -/
def isLegalList (first : Register) (count : Nat) : Bool :=
  match first.number with
  | some number =>
    if count = 2 then number.val % 2 = 0
    else if count = 3 || count = 4 then number.val % 4 = 0
    else false
  | none => false

namespace Instruction

/-- How likely a function starts with an instruction, from 0 to 100. -/
def functionScore (instruction : Instruction) : Nat :=
  if instruction.savesRegister then 90
  else if (instruction.stackDelta?.any (· < 0)) then 70
  else if instruction.pointerSetup?.isSome then 60
  else if instruction.mnemonic = .nop then 0
  else 10

def isAligned (instruction : Instruction) : Bool :=
  match instruction.width with
  | none | some .byte => true
  | _ => instruction.operands.all fun
    | .absolute address _ => address.toNat % 2 = 0
    | .displaced base displacement _ => !base.isStackPointer || displacement % 2 = 0
    | _ => true

def popsStackPointer (instruction : Instruction) : Bool :=
  match instruction.mnemonic, instruction.operands with
  | .pop, [.register register] => register.isStackPointer
  | .mov, [.postIncrement source, .register destination] =>
    source.isStackPointer && destination.isStackPointer
  | .ldm, [_, .registerList first count] => first.number.all fun number => number.val + count > 7
  | _, _ => false

def hasLegalLists (instruction : Instruction) : Bool :=
  instruction.operands.all fun
    | .registerList first count => isLegalList first count
    | _ => true

def isErased (instruction : Instruction) : Bool :=
  match instruction.mnemonic, instruction.operands with
  | .mov, [.immediate value _, .register register] =>
    value = 0xFF && register = .byte 0xF
  | _, _ => false

def isStrict (instruction : Instruction) : Bool :=
  !instruction.popsStackPointer && instruction.hasLegalLists && instruction.isAligned

def isParanoid (instruction : Instruction) : Bool :=
  instruction.mnemonic ≠ .nop && !instruction.isErased

def isSane (instruction : Instruction) (sanity : Sanity) : Bool :=
  instruction.address.toNat % 2 = 0 &&
    match sanity with
    | .basic => true
    | .strict => instruction.isStrict
    | .paranoid => instruction.isStrict && instruction.isParanoid

end Instruction

/-- Where a function leads that does nothing but jump. -/
def jumpTarget? (view : View) (mode : Mode) (entry : Address) : Option Address :=
  match view.decodeAt entry mode with
  | .error _ => none
  | .ok instruction =>
    match instruction.mnemonic, instruction.operands with
    | .jmp, .absolute address _ :: _ => some address
    | .branch .always, .relative target _ _ :: _ => some target
    | _, _ => none

/-- The length of the padding instruction at an address, or zero. -/
def paddingLength (view : View) (mode : Mode) (address : Address) : Nat :=
  match view.decodeAt address mode with
  | .ok instruction => if instruction.mnemonic = .nop then instruction.length else 0
  | .error _ => 0

end H8
