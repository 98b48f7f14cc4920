import H8.Mode

/-! Operands of assembly text, before a style decides how to spell numbers.

Pointers stand inside code or data references, so that they can be replaced by
labels. All punctuation of the processor's notation is part of the term.
-/

set_option autoImplicit false

namespace H8.Assembly

structure Label where
  name : String
  deriving DecidableEq, Repr

namespace Label

def isStartChar (c : Char) : Bool := c.isAlpha || c = '_' || c = '.'

def isChar (c : Char) : Bool := c.isAlphanum || c = '_' || c = '.'

/-- Read a label: ASCII letters, digits, underscores and dots, not starting
with a digit. -/
def ofText? (text : String) : Option Label :=
  match text.toList with
  | [] => none
  | first :: rest => if isStartChar first && rest.all isChar then some ⟨text⟩ else none

end Label

inductive Literal where
  | unsigned (value : Nat)
  | signed (value : Int)
  | pointer (address : Address)
  | text (value : String)
  deriving DecidableEq, Repr

def Literal.pointer? : Literal → Option Address
  | .pointer address => some address
  | _ => none

inductive Term where
  /-- A register or another name that the architecture defines. -/
  | symbol (name : String)
  | literal (value : Literal)
  | label (label : Label)
  | dataReference (inner : Term)
  | codeReference (inner : Term)
  /-- Two terms with a mark between them. -/
  | joined (left : Term) (mark : String) (right : Term)
  /-- A mark in front of a term. -/
  | marked (mark : String) (inner : Term)
  /-- A mark behind a term. -/
  | tagged (inner : Term) (mark : String)
  /-- A list of terms, divided by commas, between two marks. -/
  | wrapped (left : String) (inner : List Term) (right : String)
  deriving Repr

namespace Term

def dataPointer (address : Address) : Term := .dataReference (.literal (.pointer address))

def codePointer (address : Address) : Term := .codeReference (.literal (.pointer address))

def dataLabel (name : Label) : Term := .dataReference (.label name)

def codeLabel (name : Label) : Term := .codeReference (.label name)

mutual

/-- Replace the pointers that stand directly in a reference by labels. The
lookup is told whether the reference is to code. -/
def resolve (lookup : Address → Bool → Option Label) : Term → Term
  | .dataReference (.literal (.pointer address)) =>
    match lookup address false with
    | some name => dataLabel name
    | none => dataPointer address
  | .codeReference (.literal (.pointer address)) =>
    match lookup address true with
    | some name => codeLabel name
    | none => codePointer address
  | .dataReference inner => .dataReference (resolve lookup inner)
  | .codeReference inner => .codeReference (resolve lookup inner)
  | .joined left mark right => .joined (resolve lookup left) mark (resolve lookup right)
  | .marked mark inner => .marked mark (resolve lookup inner)
  | .tagged inner mark => .tagged (resolve lookup inner) mark
  | .wrapped left inner right => .wrapped left (resolveAll lookup inner) right
  | .symbol name => .symbol name
  | .literal value => .literal value
  | .label name => .label name

def resolveAll (lookup : Address → Bool → Option Label) : List Term → List Term
  | [] => []
  | first :: rest => resolve lookup first :: resolveAll lookup rest

end

end Term

structure Statement where
  opcode : String
  operands : List Term
  deriving Repr

def Statement.resolve (statement : Statement) (lookup : Address → Bool → Option Label) :
    Statement :=
  { statement with operands := statement.operands.map (Term.resolve lookup) }

end H8.Assembly
