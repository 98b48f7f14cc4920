/-! Processor cores and address spaces.

An H8 program runs on one of two cores, the H8/300H or the H8S, and in one of
two address spaces: normal, with 16-bit addresses, or advanced, with 24-bit
addresses. A mode is a choice of both. Everything that depends on the mode is
derived from those two coordinates.
-/

set_option autoImplicit false

namespace H8

/-- A linear address on the bus. Arithmetic on addresses wraps. -/
abbrev Address := UInt32

inductive Core where
  /-- The base instruction set, shared by both cores. -/
  | h8300h
  /-- The extended core with multiply-accumulate and register lists. -/
  | h8s
  deriving DecidableEq, Repr

inductive Space where
  | normal
  | advanced
  deriving DecidableEq, Repr

structure Mode where
  core : Core
  space : Space
  deriving DecidableEq, Repr

namespace Mode

/-- Every mode, in the order in which they are offered to the user. -/
def all : List Mode :=
  [⟨.h8300h, .normal⟩, ⟨.h8300h, .advanced⟩, ⟨.h8s, .normal⟩, ⟨.h8s, .advanced⟩]

def shortName : Mode → String
  | ⟨.h8300h, .normal⟩ => "h8300"
  | ⟨.h8300h, .advanced⟩ => "h8300a"
  | ⟨.h8s, .normal⟩ => "h8s300"
  | ⟨.h8s, .advanced⟩ => "h8s300a"

def longName : Mode → String
  | ⟨.h8300h, .normal⟩ => "Hitachi H8/300H normal"
  | ⟨.h8300h, .advanced⟩ => "Hitachi H8/300H advanced"
  | ⟨.h8s, .normal⟩ => "Hitachi H8S normal"
  | ⟨.h8s, .advanced⟩ => "Hitachi H8S advanced"

def savedName : Mode → String
  | ⟨.h8300h, .normal⟩ => "H8300"
  | ⟨.h8300h, .advanced⟩ => "H8300A"
  | ⟨.h8s, .normal⟩ => "H8S"
  | ⟨.h8s, .advanced⟩ => "H8SA"

/-- Read a mode name. Each mode has two spellings, in any case of letters. -/
def ofName? (name : String) : Option Mode :=
  let folded := name.toLower
  if folded = "h8300" || folded = "h8300h" then some ⟨.h8300h, .normal⟩
  else if folded = "h8300a" || folded = "h8300ha" then some ⟨.h8300h, .advanced⟩
  else if folded = "h8s300" || folded = "h8s" then some ⟨.h8s, .normal⟩
  else if folded = "h8s300a" || folded = "h8sa" then some ⟨.h8s, .advanced⟩
  else none

def isAdvanced (mode : Mode) : Bool := mode.space = .advanced

def isH8S (mode : Mode) : Bool := mode.core = .h8s

def supports (mode : Mode) : Core → Bool
  | .h8300h => true
  | .h8s => mode.isH8S

def addressMask (mode : Mode) : Address :=
  if mode.isAdvanced then 0x00FFFFFF else 0x0000FFFF

def pointerSize (mode : Mode) : Nat :=
  if mode.isAdvanced then 4 else 2

def segmentBits (mode : Mode) : Nat :=
  if mode.isAdvanced then 32 else 16

def returnSize (mode : Mode) : Nat :=
  if mode.isAdvanced then 4 else 2

end Mode

end H8
