/-! Numbers made of bytes.

The bytes are shifted one after another into a word of the number's size. Its
bits are then read as an unsigned number or in two's complement.
-/

set_option autoImplicit false

namespace H8

inductive ByteOrder where
  /-- The least significant byte comes first. -/
  | little
  /-- The most significant byte comes first, as everywhere on the H8. -/
  | big
  deriving DecidableEq, Repr

namespace ByteOrder

def arrange : ByteOrder → List UInt8 → List UInt8
  | .little, bytes => bytes.reverse
  | .big, bytes => bytes

/-- A byte as a word. There is none if the byte is beyond the largest number,
which for a signed word lies below half its range. -/
def unit? (isSigned : Bool) (width : Nat) (byte : UInt8) : Option (BitVec width) :=
  if byte.toNat < Nat.pow 2 (if isSigned then width - 1 else width) then
    some (BitVec.ofNat width byte.toNat)
  else none

def shiftIn? (isSigned : Bool) {width : Nat} (word : BitVec width) (byte : UInt8) :
    Option (BitVec width) :=
  (unit? isSigned width byte).map fun unit => word.shiftLeft 8 ||| unit

/-- The bits of the number of the given size; there are none unless the bytes
are exactly that many. -/
def word? (order : ByteOrder) (isSigned : Bool) (size : Nat) (bytes : List UInt8) :
    Option (BitVec (8 * size)) :=
  if bytes.length = size then
    (order.arrange bytes).foldlM (shiftIn? isSigned) (BitVec.zero (8 * size))
  else none

def assemble (order : ByteOrder) (size : Nat) (bytes : List UInt8) : Option Nat :=
  (order.word? false size bytes).map BitVec.toNat

def assembleSigned (order : ByteOrder) (size : Nat) (bytes : List UInt8) : Option Int :=
  (order.word? true size bytes).map BitVec.toInt

end ByteOrder

end H8
