import H8.Text.Numeral
import H8.Text.Printable

/-! Escapes: text of any characters written with printable ones.

A string constant keeps printable ASCII and writes everything else by name or
by code point. A character that is only shown to a reader keeps every
printable character.
-/

set_option autoImplicit false

namespace H8.Text

def escapeCode (c : Char) : List Char :=
  ['\\', 'u', '\x7b'] ++ Nat.toDigits 16 c.toNat ++ ['\x7d']

def escapeChar (c : Char) : List Char :=
  if c = '\t' then ['\\', 't']
  else if c = '\r' then ['\\', 'r']
  else if c = '\n' then ['\\', 'n']
  else if c = '\'' || c = '"' || c = '\\' then ['\\', c]
  else if 0x20 ≤ c.toNat && c.toNat < 0x7F then [c]
  else escapeCode c

def escape (text : List Char) : List Char := text.flatMap escapeChar

def quoted (text : String) : String :=
  "\"" ++ String.ofList (escape text.toList) ++ "\""

def shownChar (c : Char) : String :=
  let body :=
    if c = '\t' then ['\\', 't']
    else if c = '\r' then ['\\', 'r']
    else if c = '\n' then ['\\', 'n']
    else if c.toNat = 0 then ['\\', '0']
    else if c = '\'' || c = '\\' then ['\\', c]
    else if isPrintable c then [c]
    else escapeCode c
  "'" ++ String.ofList body ++ "'"

end H8.Text
