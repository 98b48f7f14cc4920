import H8.Json.Shape
import H8.Reference

/-! References as JSON. -/

set_option autoImplicit false

namespace H8.Reference

open Json (Shape)

def toJson (reference : Reference) : Json :=
  .object
    [("from", .number reference.source.toNat),
      ("to", .ofOption (fun target => .number target.toNat) reference.target),
      ("reftype", .text reference.kind.savedName)]

structure Draft where
  source : Option Address := none
  target : Option Address := none
  kind : Option ReferenceKind := none

def fieldNames : List String := ["from", "to", "reftype"]

def field (draft : Draft) (name : String) : Shape Draft :=
  if name = "from" then .map (fun source => { draft with source := some source }) .word32
  else if name = "to" then .map (fun target => { draft with target }) (.nullable .word32)
  else if name = "reftype" then
    .map (fun kind => { draft with kind := some kind }) (.variant ReferenceKind.ofSavedName?)
  else .map (fun _ => draft) .anything

def Draft.complete? (draft : Draft) : Option Reference := do
  some ⟨← draft.source, draft.target, ← draft.kind⟩

def shape : Shape Reference := .refine Draft.complete? (.record fieldNames field {})

def parse (bytes : Json.Bytes) : Except Json.ReadError Reference := Json.Format.standard.read shape bytes

end H8.Reference
