/-! Numerals: reading and writing natural numbers in a radix.

Reading accepts one leading plus sign and any number of leading zeros, and
refuses a numeral without digits and a value beyond the given bound.
-/

set_option autoImplicit false

namespace H8.Text

def digitValue? (radix : Nat) (c : Char) : Option Nat :=
  let value? :=
    if '0' ≤ c && c ≤ '9' then some (c.toNat - '0'.toNat)
    else if 'a' ≤ c && c ≤ 'f' then some (c.toNat - 'a'.toNat + 10)
    else if 'A' ≤ c && c ≤ 'F' then some (c.toNat - 'A'.toNat + 10)
    else none
  value?.filter (· < radix)

def extendValue? (radix : Nat) (value : Nat) : List Char → Option Nat
  | [] => some value
  | c :: rest => do
    let digit ← digitValue? radix c
    extendValue? radix (radix * value + digit) rest

def digitsValue? (radix : Nat) : List Char → Option Nat
  | [] => none
  | digits => extendValue? radix 0 digits

def readNumeral? (radix bound : Nat) (text : List Char) : Option Nat :=
  let digits := match text with
    | '+' :: rest => rest
    | _ => text
  (digitsValue? radix digits).filter (· < bound)

def hexDigits (value : Nat) : List Char := (Nat.toDigits 16 value).map Char.toUpper

def hex (value : Nat) : String := String.ofList (hexDigits value)

def decimal (value : Nat) : String := String.ofList (Nat.toDigits 10 value)

def signedDecimal (value : Int) : String :=
  if value < 0 then "-" ++ decimal value.natAbs else decimal value.natAbs

def explicitDecimal (value : Int) : String :=
  if value < 0 then "-" ++ decimal value.natAbs else "+" ++ decimal value.natAbs

def padLeft (filler : Char) (width : Nat) (text : String) : String :=
  String.ofList (List.replicate (width - text.length) filler) ++ text

def paddedHex (width value : Nat) : String := padLeft '0' width (hex value)

def stripMark? (mark text : List Char) : Option (List Char) :=
  if mark.isPrefixOf text then some (text.drop mark.length) else none

def stripMarks? (marks : List (List Char)) (text : List Char) : Option (List Char) :=
  marks.findSome? fun mark => stripMark? mark text

end H8.Text
