import H8.Assembly.Term
import H8.Text.Blank
import H8.Text.Numeral

/-! Numbers, addresses and bytes as users write them. -/

set_option autoImplicit false

namespace H8.Input

def numberMarks : List (List Char) := [['0', 'x'], ['0', 'X'], ['$'], ['H', '\''], ['h', '\'']]

def addressMarks : List (List Char) := [['0', 'x'], ['0', 'X'], ['$']]

/-- Read a 32-bit number: hexadecimal after a mark, otherwise decimal.
Surrounding blanks are dropped. -/
def number? (text : List Char) : Option Nat :=
  let text := Text.trim text
  match Text.stripMarks? numberMarks text with
  | some digits => Text.readNumeral? 16 UInt32.size digits
  | none => Text.readNumeral? 10 UInt32.size text

/-- Read an address: the name of a known label, or a hexadecimal number with
or without a mark. -/
def address? (lookup : Assembly.Label → Option Address) (text : String) : Option Address :=
  match (Assembly.Label.ofText? text).bind lookup with
  | some address => some address
  | none =>
    let digits := (Text.stripMarks? addressMarks text.toList).getD text.toList
    (Text.readNumeral? 16 UInt32.size digits).map UInt32.ofNat

def bytePairs? : List Char → Option (List UInt8)
  | [] => some []
  | [_] => none
  | high :: low :: rest => do
    let high ← Text.digitValue? 16 high
    let low ← Text.digitValue? 16 low
    let rest ← bytePairs? rest
    return UInt8.ofNat (16 * high + low) :: rest

/-- Read hexadecimal bytes. Blanks and commas may stand anywhere. -/
def bytes? (text : String) : Option (List UInt8) :=
  bytePairs? (text.toList.filter fun c => !Text.isBlank c && c ≠ ',')

end H8.Input
