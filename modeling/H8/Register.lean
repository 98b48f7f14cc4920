import H8.Width

/-! Architectural registers.

Eight general registers can each be named as a whole and in four parts; the
control registers have one name each. The seventh general register is the
stack pointer. The segment registers are virtual and never occur in a decoded
operand.
-/

set_option autoImplicit false

namespace H8

inductive Part where
  /-- The low word, `r0` to `r7`. -/
  | low
  /-- The extended high word, `e0` to `e7`. -/
  | upper
  /-- The high byte of the low word. -/
  | highByte
  /-- The low byte of the low word. -/
  | lowByte
  /-- All 32 bits, `er0` to `er7`. -/
  | whole
  deriving DecidableEq, Repr

inductive Control where
  | macl
  | mach
  | pc
  | ccr
  | exr
  | cs
  | ds
  deriving DecidableEq, Repr

inductive Register where
  | general (part : Part) (number : Fin 8)
  | control (name : Control)
  deriving DecidableEq, Repr

namespace Part

def all : List Part := [.low, .upper, .highByte, .lowByte, .whole]

def width : Part → Width
  | .low | .upper => .word
  | .highByte | .lowByte => .byte
  | .whole => .long

end Part

namespace Control

def all : List Control := [.macl, .mach, .pc, .ccr, .exr, .cs, .ds]

def name : Control → String
  | .macl => "macl"
  | .mach => "mach"
  | .pc => "pc"
  | .ccr => "ccr"
  | .exr => "exr"
  | .cs => "cs"
  | .ds => "ds"

def isH8SOnly : Control → Bool
  | .macl | .mach | .exr => true
  | .pc | .ccr | .cs | .ds => false

end Control

namespace Register

/-- Every register in order: low words, upper words, high bytes, low bytes,
whole registers, control registers. -/
def all : List Register :=
  Part.all.flatMap (fun part => (List.finRange 8).map (.general part)) ++ Control.all.map .control

/-- A 4-bit byte register field: `r0h` to `r7h`, then `r0l` to `r7l`. -/
def byte (field : Nat) : Register :=
  .general (if field % 16 < 8 then .highByte else .lowByte) (Fin.ofNat 8 field)

/-- A 4-bit word register field: `r0` to `r7`, then `e0` to `e7`. -/
def word (field : Nat) : Register :=
  .general (if field % 16 < 8 then .low else .upper) (Fin.ofNat 8 field)

def long (field : Nat) : Register :=
  .general .whole (Fin.ofNat 8 field)

def stackPointer : Register := .general .whole 7

def number : Register → Option (Fin 8)
  | .general _ number => some number
  | .control _ => none

def width : Register → Option Width
  | .general part _ => some part.width
  | .control _ => none

/-- The two names of the stack pointer that can address memory. -/
def isStackPointer : Register → Bool
  | .general .low number => number = 7
  | .general .whole number => number = 7
  | _ => false

def isH8SOnly : Register → Bool
  | .control name => name.isH8SOnly
  | .general _ _ => false

def digit (number : Fin 8) : String :=
  String.singleton (Nat.digitChar number.val)

def plainName : Register → String
  | .general .low number => "r" ++ digit number
  | .general .upper number => "e" ++ digit number
  | .general .highByte number => "r" ++ digit number ++ "h"
  | .general .lowByte number => "r" ++ digit number ++ "l"
  | .general .whole number => "er" ++ digit number
  | .control name => name.name

/-- The name in assembly text. Both stack pointer registers are `sp`. -/
def name (register : Register) : String :=
  if register.isStackPointer then "sp" else register.plainName

def index (register : Register) : Nat := all.idxOf register

/-- Read a register name in any case of letters. `sp` is the low word. -/
def ofName? (name : String) : Option Register :=
  let folded := name.toLower
  if folded = "sp" then some (.general .low 7)
  else all.find? fun register => register.plainName = folded

end Register

end H8
