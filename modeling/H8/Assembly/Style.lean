import H8.Assembly.Directive
import H8.Text.Escape

/-! The two assembly styles and the text they write.

Operands are punctuated in the same way in both styles, which differ in the
mark of hexadecimal numbers and in the names of directives.
-/

set_option autoImplicit false

namespace H8.Assembly

inductive Style where
  /-- The syntax of GNU as. -/
  | gas
  /-- The syntax of the Renesas HEW toolchain. -/
  | hew
  deriving DecidableEq, Repr

structure Spelling where
  /-- Stands in front of hexadecimal digits. -/
  hexMark : String
  origin : String
  space : String
  text : String
  bytes : String
  /-- Stands between the elements of byte data. -/
  separator : String
  words : String
  longs : String
  /-- Stands between the name and the value of a constant. -/
  constantMark : String
  align : String
  exported : String
  imported : String
  /-- A common block; without a word for it, it is a label and a space. -/
  common : Option String
  deriving DecidableEq, Repr

namespace Style

def all : List Style := [.gas, .hew]

def spelling : Style → Spelling
  | .gas => {
      hexMark := "0x", origin := ".org", space := ".space", text := ".ascii", bytes := ".byte"
      separator := ", ", words := ".word", longs := ".long", constantMark := " = "
      align := ".align", exported := ".globl", imported := ".extern", common := some ".comm" }
  | .hew => {
      hexMark := "H'", origin := ".ORG", space := ".RES.B", text := ".SDATA", bytes := ".DATA.B"
      separator := ",", words := ".DATA.W", longs := ".DATA.L", constantMark := ": .EQU "
      align := ".ALIGN", exported := ".EXPORT", imported := ".IMPORT", common := none }

def friendlyName : Style → String
  | .gas => "GNU as"
  | .hew => "Renesas HEW"

def savedName : Style → String
  | .gas => "Gas"
  | .hew => "Hew"

def ofName? (name : String) : Option Style :=
  let folded := name.toLower
  if folded = "gas" || folded = "gnu" then some .gas
  else if folded = "hew" || folded = "renesas" then some .hew
  else none

/-- An unsigned number: one decimal digit, or marked hexadecimal. -/
def number (style : Style) (value : Nat) : String :=
  if value < 10 then Text.decimal value else style.spelling.hexMark ++ Text.hex value

def literal (style : Style) : Literal → String
  | .unsigned value => style.number value
  | .signed value =>
    if value < 0 then "-" ++ style.number value.natAbs else style.number value.natAbs
  | .pointer address => style.number address.toNat
  | .text value => Text.quoted value

mutual

def term (style : Style) : Term → String
  | .symbol name => name
  | .literal value => style.literal value
  | .label label => label.name
  | .dataReference inner => term style inner
  | .codeReference inner => term style inner
  | .joined left mark right => term style left ++ mark ++ term style right
  | .marked mark inner => mark ++ term style inner
  | .tagged inner mark => term style inner ++ mark
  | .wrapped left inner right => left ++ termList style inner ++ right

def termList (style : Style) : List Term → String
  | [] => ""
  | [last] => term style last
  | first :: rest => term style first ++ "," ++ termList style rest

end

def directiveLine (word argument : String) : String :=
  "    " ++ word ++ " " ++ argument ++ "\n"

def comment (text : String) : String := "; " ++ text ++ "\n"

def labelDeclaration (label : Label) : String := label.name ++ ":\n"

def originLine (style : Style) (address : Address) : String :=
  directiveLine style.spelling.origin (style.number address.toNat)

def spaceLine (style : Style) (size : Nat) : String :=
  directiveLine style.spelling.space (Text.decimal size)

/-- Runs of printable text at least this long are written as strings. -/
def minTextRun : Nat := 4

def isText (bytes : List UInt8) : Bool :=
  minTextRun ≤ bytes.length && bytes.all fun byte => 0x20 ≤ byte && byte < 0x7F

def byte (style : Style) (value : UInt8) : String :=
  style.spelling.hexMark ++ Text.paddedHex 2 value.toNat

/-- Constant data: nothing if there is none, text where it reads as text. -/
def dataLine (style : Style) (bytes : List UInt8) : String :=
  if bytes.isEmpty then ""
  else if isText bytes then
    directiveLine style.spelling.text
      (Text.quoted (String.ofList (bytes.map fun byte => Char.ofNat byte.toNat)))
  else
    directiveLine style.spelling.bytes
      (String.intercalate style.spelling.separator (bytes.map style.byte))

def pointerLines (style : Style) (targets : List Term) (size : Nat) : String :=
  let word := if size = 2 then style.spelling.words else style.spelling.longs
  String.join (targets.map fun target => directiveLine word (style.term target))

def constantLine (style : Style) (name : String) (value : Nat) : String :=
  name ++ style.spelling.constantMark ++ style.number value ++ "\n"

def alignLine (style : Style) (size : Nat) : String :=
  directiveLine style.spelling.align (Text.decimal size)

def exportLine (style : Style) (label : Label) : String :=
  directiveLine style.spelling.exported label.name

def importLine (style : Style) (label : Label) : String :=
  directiveLine style.spelling.imported label.name

def commonLines (style : Style) (label : Label) (size : Nat) : String :=
  match style.spelling.common with
  | some word => directiveLine word (label.name ++ ", " ++ Text.decimal size)
  | none => labelDeclaration label ++ style.spaceLine size

def statementLine (style : Style) (statement : Statement) : String :=
  let operands := match statement.operands with
    | [] => ""
    | operands => " " ++ style.termList operands
  "    " ++ statement.opcode ++ operands ++ "\n"

def directive (style : Style) : Directive → String
  | .instruction statement _ => style.statementLine statement
  | .data bytes => style.dataLine bytes
  | .pointers targets size => style.pointerLines targets size
  | .space size => style.spaceLine size
  | .label label => labelDeclaration label
  | .origin address => style.originLine address
  | .comment text => comment text

def sectionText (style : Style) (part : Section) : String :=
  String.join (part.directives.map fun located => style.directive located.directive)

end Style

end H8.Assembly
