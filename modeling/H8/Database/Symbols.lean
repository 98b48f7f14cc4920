import H8.AddressMap
import H8.Assembly.Term
import H8.Reference
import H8.Text.Numeral

/-! Named locations.

Every symbol has a number. A label and an address each lead to the number of
the symbol that was last recorded for them.
-/

set_option autoImplicit false

namespace H8

open Assembly (Label)

structure Symbol where
  label : Label
  address : Address
  deriving DecidableEq, Repr

structure Symbols where
  /-- The symbols in the order in which they were made. -/
  all : Array Symbol
  byLabel : List (Label × Nat)
  byAddress : AddressMap Nat

namespace Symbols

def empty : Symbols := ⟨#[], [], .empty⟩

def labelSymbol? (symbols : Symbols) (label : Label) : Option Symbol :=
  (symbols.byLabel.lookup label).bind fun number => symbols.all[number]?

def addressSymbol? (symbols : Symbols) (address : Address) : Option Symbol :=
  (symbols.byAddress.get? address).bind fun number => symbols.all[number]?

def address? (symbols : Symbols) (label : Label) : Option Address :=
  (symbols.labelSymbol? label).map Symbol.address

def label? (symbols : Symbols) (address : Address) : Option Label :=
  (symbols.addressSymbol? address).map Symbol.label

def dropLabel (label : Label) (byLabel : List (Label × Nat)) : List (Label × Nat) :=
  byLabel.filter fun entry => entry.1 ≠ label

def bindLabel (label : Label) (number : Nat) (byLabel : List (Label × Nat)) :
    List (Label × Nat) :=
  (label, number) :: dropLabel label byLabel

def insert (symbols : Symbols) (label : Label) (address : Address) : Symbols where
  all := symbols.all.push ⟨label, address⟩
  byLabel := bindLabel label symbols.all.size symbols.byLabel
  byAddress := symbols.byAddress.insert address symbols.all.size

def isGenerated (label : Label) : Bool :=
  ReferenceKind.all.any fun kind =>
    match Text.stripMark? (kind.labelStem ++ "_").toList label.name.toList with
    | some digits => !digits.isEmpty && digits.all fun c => (Text.digitValue? 16 c).isSome
    | none => false

/-- Make sure that a label leads to an address. A label that exists is moved
there, and a generated name of the address is replaced. -/
def upsert (symbols : Symbols) (label : Label) (address : Address) : Symbols :=
  match symbols.byLabel.lookup label with
  | some number =>
    match symbols.all[number]? with
    | some symbol =>
      if symbol.address = address then symbols
      else
        -- The label moves; whatever else its former address was called is lost.
        { symbols with
          all := symbols.all.setIfInBounds number { symbol with address }
          byAddress := (symbols.byAddress.erase symbol.address).insert address number }
    | none => symbols
  | none =>
    match symbols.byAddress.get? address with
    | some number =>
      match symbols.all[number]? with
      | some symbol =>
        -- A generated name gives way, a given one stays beside the new one.
        if isGenerated symbol.label then
          { symbols with
            all := symbols.all.setIfInBounds number { symbol with label }
            byLabel := bindLabel label number (dropLabel symbol.label symbols.byLabel) }
        else symbols.insert label address
      | none => symbols
    | none => symbols.insert label address

def generatedLabel (kind : ReferenceKind) (address : Address) : Label :=
  ⟨kind.labelStem ++ "_" ++ Text.hex address.toNat⟩

def ensureLabel (symbols : Symbols) (address : Address) (kind : ReferenceKind) : Symbols :=
  match symbols.label? address with
  | some _ => symbols
  | none => symbols.insert (generatedLabel kind address) address

end Symbols

end H8
