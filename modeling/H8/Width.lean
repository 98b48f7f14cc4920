import H8.Mode

/-! Sizes: the width of an operation and the width of an encoded field. -/

set_option autoImplicit false

namespace H8

inductive Width where
  | byte
  | word
  | long
  deriving DecidableEq, Repr

namespace Width

def bytes : Width → Nat
  | .byte => 1
  | .word => 2
  | .long => 4

def suffix : Width → String
  | .byte => ".b"
  | .word => ".w"
  | .long => ".l"

def modulus : Width → Nat
  | .byte => UInt8.size
  | .word => UInt16.size
  | .long => UInt32.size

/-- The value of this width's signed range that is congruent to the given one. -/
def wrap (width : Width) (value : Int) : Int := value.bmod width.modulus

end Width

/-- How many bits an encoded address or displacement occupies. Operands keep
it, so that they can be written with the size they were assembled with. -/
inductive FieldWidth where
  | bits8
  | bits16
  | bits24
  | bits32
  deriving DecidableEq, Repr

namespace FieldWidth

def bits : FieldWidth → Nat
  | .bits8 => 8
  | .bits16 => 16
  | .bits24 => 24
  | .bits32 => 32

def suffix : FieldWidth → String
  | .bits8 => ":8"
  | .bits16 => ":16"
  | .bits24 => ":24"
  | .bits32 => ":32"

/-- The name of a four byte field. The H8/300H has a 24-bit bus and calls it
`:24`; the H8S calls it `:32`. -/
def longForm (mode : Mode) : FieldWidth :=
  if mode.isH8S then .bits32 else .bits24

end FieldWidth

def wrap32 (value : Int) : Int := Width.long.wrap value

def Address.saturatingAdd (address : Address) (distance : Nat) : Address :=
  if address.toNat + distance < UInt32.size then address + UInt32.ofNat distance else 0xFFFFFFFF

end H8
