import H8.Mode

/-! References from an instruction to another location. -/

set_option autoImplicit false

namespace H8

inductive ReferenceKind where
  | unknown
  | data
  | code
  | subroutine
  deriving DecidableEq, Repr

namespace ReferenceKind

def shortName : ReferenceKind → String
  | .unknown => "UNK"
  | .data => "DAT"
  | .code => "LOC"
  | .subroutine => "FUN"

def savedName : ReferenceKind → String
  | .unknown => "Unknown"
  | .data => "Data"
  | .code => "Code"
  | .subroutine => "Subroutine"

def all : List ReferenceKind := [.unknown, .data, .code, .subroutine]

/-- Read a saved name, which must be spelled exactly. -/
def ofSavedName? (name : String) : Option ReferenceKind :=
  all.find? fun kind => kind.savedName = name

def labelStem : ReferenceKind → String
  | .unknown => "unk"
  | .data => "dat"
  | .code => "loc"
  | .subroutine => "sub"

end ReferenceKind

structure Reference where
  source : Address
  /-- A reference whose target is only known when the program runs has none. -/
  target : Option Address
  kind : ReferenceKind
  deriving DecidableEq, Repr

namespace Reference

def isCode (reference : Reference) : Bool :=
  reference.kind = .code || reference.kind = .subroutine

/-- The order by source, then target with unknown targets first, then the
short name of the kind. -/
def isBefore (first second : Reference) : Bool :=
  let key (reference : Reference) : Nat × Nat × String :=
    (reference.source.toNat, (reference.target.map (·.toNat + 1)).getD 0, reference.kind.shortName)
  let (source, target, name) := key first
  let (source', target', name') := key second
  source < source' ||
    (source = source' && (target < target' || (target = target' && name ≤ name')))

end Reference

end H8
