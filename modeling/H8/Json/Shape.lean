import H8.Json.Reader
import H8.Json.Value

/-! Shapes: what values of a type look like in JSON.

A shape says how a value is made out of JSON, whatever reads the text. It is
given a meaning twice: on JSON values, and by a reader of texts. A format
writes JSON values and reads texts by shapes.
-/

set_option autoImplicit false

namespace H8.Json

inductive Shape : Type → Type 1 where
  /-- Any value, which is passed over. -/
  | anything : Shape Unit
  | text : Shape String
  /-- A number below 2^32. -/
  | natural32 : Shape Nat
  /-- A value or `null`. -/
  | nullable {Value : Type} (shape : Shape Value) : Shape (Option Value)
  | array {Value : Type} (item : Shape Value) : Shape (List Value)
  /-- A name out of a closed set. -/
  | variant {Value : Type} (ofName? : String → Option Value) : Shape Value
  /-- An object of any names, whose entries change a state one by one. -/
  | object {State : Type} (entry : State → String → Shape State) (initial : State) : Shape State
  /-- An object or array of known fields, which change a state one by one. The
  fields of an object that are not known are read as well. -/
  | record {State : Type} (names : List String) (field : State → String → Shape State)
      (initial : State) : Shape State
  /-- A value that stands for one of another type, or for none. -/
  | refine {First Value : Type} (change : First → Option Value) (shape : Shape First) : Shape Value

namespace Shape

def map {First Value : Type} (change : First → Value) (shape : Shape First) : Shape Value :=
  .refine (fun value => some (change value)) shape

def named {Value : Type} (ofName? : String → Option Value) : Shape Value := .refine ofName? .text

def word32 : Shape UInt32 := .map UInt32.ofNat .natural32

/-- The name that a value stands for, which may also be the only field of an
object. -/
def name? : Json → Option String
  | .text name => some name
  | .object [(name, .null)] => some name
  | _ => none

/-- The fields of a record: those of an object, if no known one stands twice, or
the elements of an array in the order of the known fields. -/
def fields? (names : List String) : Json → Option (List (String × Json))
  | .object fields => if ((fields.map Prod.fst).filter names.contains).Nodup then some fields else none
  | .array items => if items.length ≤ names.length then some (names.zip items) else none
  | _ => none

def ofJson? {Value : Type} : Shape Value → Json → Option Value
  | .anything, _ => some ()
  | .text, json => match json with
    | .text value => some value
    | _ => none
  | .natural32, json => match json with
    | .number value => if value < UInt32.size then some value else none
    | _ => none
  | .nullable shape, json => match json with
    | .null => some none
    | json => (shape.ofJson? json).map some
  | .array item, json => match json with
    | .array items => items.mapM item.ofJson?
    | _ => none
  | .variant ofName?, json => (name? json).bind ofName?
  | .object entry initial, json => match json with
    | .object fields =>
      fields.foldlM (fun state field => (entry state field.1).ofJson? field.2) initial
    | _ => none
  | .record names field initial, json => do
    let fields ← fields? names json
    fields.foldlM (fun state entry => (field state entry.1).ofJson? entry.2) initial
  | .refine change shape, json => (shape.ofJson? json).bind change

def reader {Value : Type} : Shape Value → Reader Value
  | .anything => Reader.skipValue
  | .text => Reader.text
  | .natural32 => Reader.natural32
  | .nullable shape => Reader.nullable shape.reader
  | .array item => Reader.array item.reader
  | .variant ofName? => Reader.variant ofName?
  | .object entry initial =>
    Reader.object (fun _ => false) (fun state name => (entry state name).reader) initial
  | .record names field initial =>
    Reader.record names (fun state name => (field state name).reader) initial
  | .refine change shape => Reader.refine change shape.reader

end Shape

structure Format where
  write : Json → Bytes
  read {Value : Type} : Shape Value → Bytes → Except ReadError Value

def Format.standard : Format where
  write := Json.encode
  read shape := Reader.readAll shape.reader

end H8.Json
