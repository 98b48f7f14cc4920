import H8.AddressMap
import H8.Reference
import H8.Width

/-! Recorded references.

The references are distinct and have numbers in the order in which they were
found. Two indexes file these numbers, one under the sources and one under the
targets, so that a look-up need not go through all references.
-/

set_option autoImplicit false

namespace H8

abbrev ReferenceIndex := AddressMap (List Nat)

namespace ReferenceIndex

def numbersAt (index : ReferenceIndex) (address : Address) : List Nat :=
  (index.get? address).getD []

def file (index : ReferenceIndex) (key : Option Address) (number : Nat) : ReferenceIndex :=
  match key with
  | some address => index.insert address (index.numbersAt address ++ [number])
  | none => index

/-- Whether an address lies in the range of the given length, which stops at
the highest address. -/
def inRange (start : Address) (length : Nat) (address : Address) : Bool :=
  start ≤ address && address < Address.saturatingAdd start length

def numbersIn (index : ReferenceIndex) (start : Address) (length : Nat) : List Nat :=
  (index.entries.filter fun entry => inRange start length entry.1).flatMap Prod.snd

/-- Each number is filed once, under the key of its reference, and nowhere else. -/
structure Files (index : ReferenceIndex) (key : Reference → Option Address)
    (all : Array Reference) : Prop where
  mem_iff : ∀ address number, number ∈ index.numbersAt address ↔
    ∃ reference, all[number]? = some reference ∧ key reference = some address
  nodup : ∀ address, (index.numbersAt address).Nodup

theorem files_empty (key : Reference → Option Address) : Files .empty key #[] where
  mem_iff := by simp [numbersAt, AddressMap.empty, AddressMap.get?]
  nodup := by simp [numbersAt, AddressMap.empty, AddressMap.get?]

theorem mem_file_iff {index : ReferenceIndex} {key : Option Address} {number other : Nat}
    {address : Address} : other ∈ (index.file key number).numbersAt address ↔
      other ∈ index.numbersAt address ∨ other = number ∧ key = some address := by
  cases key with
  | none => simp [file]
  | some filed =>
    simp only [file, numbersAt, AddressMap.get?_insert, Option.some.injEq]
    split
    · next same => simp [same]
    · next different => simp [Ne.symm different]

theorem Files.push {index : ReferenceIndex} {key : Reference → Option Address}
    {all : Array Reference} (files : index.Files key all) (reference : Reference) :
    (index.file (key reference) all.size).Files key (all.push reference) where
  mem_iff := by
    intro address number
    rw [mem_file_iff, files.mem_iff, Array.getElem?_push]
    split
    · next last => simp [last]
    · next old => simp [old]
  nodup := by
    intro address
    cases filed : key reference with
    | none => exact files.nodup address
    | some target =>
      simp only [file, numbersAt, AddressMap.get?_insert]
      split
      · -- No reference had the new number before.
        refine List.nodup_append.mpr ⟨files.nodup target, by simp, fun number old last same => ?_⟩
        rintro rfl
        obtain ⟨stored, found, -⟩ := (files.mem_iff target number).mp old
        simp [List.mem_singleton.mp same] at found
      · exact files.nodup address

end ReferenceIndex

structure CrossReferences where
  all : Array Reference
  bySource : ReferenceIndex
  byTarget : ReferenceIndex
  files_source : bySource.Files (fun reference => some reference.source) all
  files_target : byTarget.Files Reference.target all

namespace CrossReferences

def empty : CrossReferences :=
  ⟨#[], .empty, .empty, ReferenceIndex.files_empty _, ReferenceIndex.files_empty _⟩

def contains (references : CrossReferences) (reference : Reference) : Bool :=
  (references.bySource.numbersAt reference.source).any fun number =>
    references.all[number]? = some reference

def insert (references : CrossReferences) (reference : Reference) : CrossReferences :=
  if references.contains reference then references
  else {
    all := references.all.push reference
    bySource := references.bySource.file (some reference.source) references.all.size
    byTarget := references.byTarget.file reference.target references.all.size
    files_source := references.files_source.push reference
    files_target := references.files_target.push reference }

def fromRange (references : CrossReferences) (start : Address) (length : Nat) : List Reference :=
  (references.bySource.numbersIn start length).filterMap fun number => references.all[number]?

/-- The references to a range. Those without a known target are not among them. -/
def toRange (references : CrossReferences) (start : Address) (length : Nat) : List Reference :=
  (references.byTarget.numbersIn start length).filterMap fun number => references.all[number]?

def isCodeTarget (references : CrossReferences) (address : Address) : Bool :=
  (references.byTarget.numbersAt address).any fun number =>
    references.all[number]?.any Reference.isCode

end CrossReferences

end H8
