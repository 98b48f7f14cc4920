import H8.Encoding.Index

/-! Decoding.

The opcodes that can begin with the first byte are tried from the most
specific to the least. The first one that matches completely and whose
operands can be built gives the instruction.
-/

set_option autoImplicit false

namespace H8

open Encoding

inductive DecodeError where
  /-- No opcode matches. -/
  | unknownOpcode
  /-- The bytes end before the instruction does. -/
  | truncated
  /-- An operand does not exist in the current mode. -/
  | illegalOperand
  /-- No segment covers the address. -/
  | outOfSegment (address : Address)
  deriving DecidableEq, Repr

def DecodeError.message : DecodeError → String
  | .unknownOpcode => "invalid instruction"
  | .truncated => "instruction runs past the end of its input"
  | .illegalOperand => "operand is not available in this processor mode"
  | .outOfSegment address => "address $" ++ Text.paddedHex 6 address.toNat ++ " is not in any segment"

def maxInstructionLength : Nat := 10

/-- The address of an `@aa:8` operand, which lies in the highest page. -/
def highPage (mode : Mode) (low : Nat) : Address :=
  (0xFFFFFF00 ||| UInt32.ofNat (low % UInt8.size)) &&& mode.addressMask

/-- The address of an `@aa:16` operand, which is sign extended. -/
def shortAbsolute (mode : Mode) (value : Nat) : Address :=
  UInt32.ofInt (Width.word.wrap value) &&& mode.addressMask

/-- The address of a three or four byte operand. A fourth byte is ignored. -/
def longAbsolute (mode : Mode) (value : Nat) : Address :=
  UInt32.ofNat (value % 0x1000000) &&& mode.addressMask

def signExtend (bits value : Nat) : Int := (value : Int).bmod (Nat.pow 2 bits)

def branchTarget (mode : Mode) (next : Address) (displacement : Int) : Address :=
  (next + UInt32.ofInt displacement) &&& mode.addressMask

def Encoding.Slot.operand (mode : Mode) (next : Address) (field : Char → Nat) :
    Slot → Except DecodeError Operand
  | .reg8 letter => .ok (.register (.byte (field letter)))
  | .reg16 letter => .ok (.register (.word (field letter)))
  | .reg32 letter => .ok (.register (.long (field letter)))
  | .control register =>
    if register.isH8SOnly && !mode.isH8S then .error .illegalOperand
    else .ok (.register (.control register))
  | .imm letter width => .ok (.immediate (field letter) width)
  | .const value => .ok (.immediate value .byte)
  | .bit letter => .ok (.bit (field letter))
  | .ind base => .ok (.indirect (.long (field base)))
  | .postInc base => .ok (.postIncrement (.long (field base)))
  | .preDec base => .ok (.preDecrement (.long (field base)))
  | .popped => .ok (.postIncrement .stackPointer)
  | .pushed => .ok (.preDecrement .stackPointer)
  | .disp16 letter base =>
    .ok (.displaced (.long (field base)) (signExtend 16 (field letter)) .bits16)
  -- The highest byte of a four byte field is reserved.
  | .dispLong letter base =>
    .ok (.displaced (.long (field base)) (signExtend 24 (field letter)) (.longForm mode))
  | .abs8 letter => .ok (.absolute (highPage mode (field letter)) .bits8)
  | .abs16 letter => .ok (.absolute (shortAbsolute mode (field letter)) .bits16)
  | .abs24 letter => .ok (.absolute (longAbsolute mode (field letter)) .bits24)
  | .absLong letter => .ok (.absolute (longAbsolute mode (field letter)) (.longForm mode))
  | .rel8 letter =>
    let displacement := signExtend 8 (field letter)
    .ok (.relative (branchTarget mode next displacement) displacement .bits8)
  | .rel16 letter =>
    let displacement := signExtend 16 (field letter)
    .ok (.relative (branchTarget mode next displacement) displacement .bits16)
  | .vector letter => .ok (.vector (field letter))
  | .listTo last count =>
    let size := field count + 1
    if field last + 1 < size then .error .unknownOpcode
    else .ok (.registerList (.long (field last + 1 - size)) size)
  | .listFrom first count =>
    let size := field count + 1
    if field first + size > 8 then .error .unknownOpcode
    else .ok (.registerList (.long (field first)) size)

def Encoding.Opcode.build (opcode : Opcode) (bytes : List UInt8) (address : Address)
    (mode : Mode) : Except DecodeError Instruction := do
  let field := opcode.pattern.field bytes
  let next := address + UInt32.ofNat opcode.pattern.length
  let operands ← opcode.slots.mapM (Slot.operand mode next field)
  return {
    address
    length := opcode.pattern.length
    mnemonic := match opcode.condition with
      | some letter => .branch (.ofField (field letter))
      | none => opcode.mnemonic
    width := opcode.width
    operands
    longForm := opcode.slots.any Slot.isLong
    h8sOnly := opcode.core = .h8s }

inductive Attempt where
  /-- The opcode does not apply. -/
  | rejected
  /-- The opcode agrees with the bytes, which end too early. -/
  | incomplete
  /-- The opcode matches, but has an operand the mode lacks. -/
  | illegal
  | decoded (instruction : Instruction)
  deriving DecidableEq, Repr

def Encoding.Opcode.attempt (opcode : Opcode) (bytes : List UInt8) (address : Address)
    (mode : Mode) : Attempt :=
  if !mode.supports opcode.core then .rejected
  else match opcode.pattern.compare bytes with
    | .mismatch => .rejected
    | .incomplete => .incomplete
    | .full =>
      match opcode.build bytes address mode with
      | .ok instruction => .decoded instruction
      | .error .illegalOperand => .illegal
      | .error _ => .rejected

def Attempt.instruction? : Attempt → Option Instruction
  | .decoded instruction => some instruction
  | _ => none

/-- The outcome of a list of attempts: the first instruction, or else the
gravest obstacle that was met. -/
def Attempt.outcome (attempts : List Attempt) : Except DecodeError Instruction :=
  match attempts.findSome? Attempt.instruction? with
  | some instruction => .ok instruction
  | none =>
    -- An opcode that matched completely says more than one cut short.
    if attempts.contains .illegal then .error .illegalOperand
    else if attempts.contains .incomplete then .error .truncated
    else .error .unknownOpcode

/-- Decode the instruction at the start of the bytes. They may run on beyond
its end. -/
def decode (bytes : List UInt8) (address : Address) (mode : Mode) :
    Except DecodeError Instruction :=
  match bytes with
  | [] => .error .truncated
  | first :: _ =>
    Attempt.outcome ((candidates first).map fun opcode => opcode.attempt bytes address mode)

end H8
