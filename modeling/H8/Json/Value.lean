import H8.Text.Numeral
import H8.Text.Utf8

/-! JSON values and their text. Numbers are natural, as in all files that this
library writes. -/

set_option autoImplicit false

namespace H8

inductive Json where
  | null
  | number (value : Nat)
  | text (value : String)
  | array (items : List Json)
  | object (fields : List (String × Json))
  deriving Repr

namespace Json

def ofOption {Value : Type} (encode : Value → Json) : Option Value → Json
  | some value => encode value
  | none => .null

def shortEscape? (c : Char) : Option Char :=
  if c = '"' then some '"'
  else if c = '\\' then some '\\'
  else if c = '\n' then some 'n'
  else if c = '\r' then some 'r'
  else if c = '\t' then some 't'
  else if c = Char.ofNat 8 then some 'b'
  else if c = Char.ofNat 12 then some 'f'
  else none

/-- The quote, the backslash and the control characters are escaped, those
without a letter of their own by number. -/
def escapeChar (c : Char) : List Char :=
  match shortEscape? c with
  | some letter => ['\\', letter]
  | none =>
    if c.toNat < 0x20 then
      ['\\', 'u', '0', '0', Nat.digitChar (c.toNat / 16), Nat.digitChar (c.toNat % 16)]
    else [c]

def quoted (text : String) : String :=
  "\"" ++ String.ofList (text.toList.flatMap escapeChar) ++ "\""

mutual

def write : Json → String
  | .null => "null"
  | .number value => Text.decimal value
  | .text value => quoted value
  | .array items => "[" ++ writeItems items ++ "]"
  | .object fields => "\x7b" ++ writeFields fields ++ "\x7d"

def writeItems : List Json → String
  | [] => ""
  | [last] => write last
  | first :: rest => write first ++ "," ++ writeItems rest

def writeFields : List (String × Json) → String
  | [] => ""
  | [(name, last)] => quoted name ++ ":" ++ write last
  | (name, first) :: rest => quoted name ++ ":" ++ write first ++ "," ++ writeFields rest

end

def encode (json : Json) : List UInt8 := Text.bytes json.write

end Json

end H8
