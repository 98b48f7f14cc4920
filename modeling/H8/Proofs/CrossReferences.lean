import H8.Database
import H8.Proofs.AddressMap
import H8.Proofs.Memory
import Mathlib.Data.List.Induction
import Mathlib.Data.List.Nodup

/-! The recorded references are a set.

A reference is looked for only among those from its own source, and its number
is filed before it is stored. Since both indexes file every number once, under
the address that its reference has, no reference is stored twice and a look-up
through an index finds what a search of all references would find.
-/

set_option autoImplicit false

namespace H8

namespace ReferenceIndex
variable {index : ReferenceIndex} {key : Reference → Option Address} {all : Array Reference}
  {start address : Address} {length number : Nat} {reference : Reference}

theorem inRange_iff (low : start.toNat + length < UInt32.size) :
    inRange start length address = true ↔
      start.toNat ≤ address.toNat ∧ address.toNat < start.toNat + length := by
  unfold inRange
  rw [Bool.and_eq_true, decide_eq_true_eq, decide_eq_true_eq, UInt32.le_iff_toNat_le,
    UInt32.lt_iff_toNat_lt, Address.toNat_saturatingAdd]
  omega

theorem numbersAt_of_mem {numbers : List Nat} (member : (address, numbers) ∈ index.entries) :
    index.numbersAt address = numbers := by
  rw [numbersAt, AddressMap.get?_eq_some_iff.mpr member, Option.getD_some]

theorem mem_numbersIn_iff :
    number ∈ index.numbersIn start length ↔
      ∃ address, inRange start length address = true ∧ number ∈ index.numbersAt address := by
  simp only [numbersIn, List.mem_flatMap, List.mem_filter]
  constructor
  · rintro ⟨⟨address, numbers⟩, ⟨member, inside⟩, filed⟩
    exact ⟨address, inside, numbersAt_of_mem member ▸ filed⟩
  · rintro ⟨address, inside, filed⟩
    cases found : index.get? address with
    | none => simp [numbersAt, found] at filed
    | some numbers =>
      have member := AddressMap.get?_eq_some_iff.mp found
      exact ⟨(address, numbers), ⟨member, inside⟩, numbersAt_of_mem member ▸ filed⟩

namespace Files

theorem eq_of_mem (files : index.Files key all) {other : Address}
    (here : number ∈ index.numbersAt address) (there : number ∈ index.numbersAt other) :
    address = other := by
  obtain ⟨reference, found, filed⟩ := (files.mem_iff address number).mp here
  obtain ⟨same, found', filed'⟩ := (files.mem_iff other number).mp there
  rw [found, Option.some.injEq] at found'
  rw [← found', filed] at filed'
  exact Option.some.inj filed'

theorem nodup_numbersIn (files : index.Files key all) (start : Address) (length : Nat) :
    (index.numbersIn start length).Nodup := by
  refine List.nodup_flatMap.mpr ⟨fun entry member => ?_, ?_⟩
  · have filed := numbersAt_of_mem (List.mem_filter.mp member).1
    exact filed ▸ files.nodup entry.1
  · refine (index.sorted.filter _).imp_of_mem fun {first second} left right below => ?_
    intro number here there
    rw [← numbersAt_of_mem (List.mem_filter.mp left).1] at here
    rw [← numbersAt_of_mem (List.mem_filter.mp right).1] at there
    exact UInt32.ne_of_lt below (files.eq_of_mem here there)

theorem mem_lookups_iff (files : index.Files key all) :
    reference ∈ (index.numbersIn start length).filterMap (fun number => all[number]?) ↔
      reference ∈ all ∧ ∃ address ∈ key reference, inRange start length address = true := by
  simp only [List.mem_filterMap, mem_numbersIn_iff, files.mem_iff]
  constructor
  · rintro ⟨number, ⟨address, inside, stored, found, filed⟩, here⟩
    rw [found, Option.some.injEq] at here
    subst here
    exact ⟨Array.mem_of_getElem? found, address, filed, inside⟩
  · rintro ⟨member, address, filed, inside⟩
    obtain ⟨number, here⟩ := Array.getElem?_of_mem member
    exact ⟨number, ⟨address, inside, reference, here, filed⟩, here⟩

theorem nodup_lookups (files : index.Files key all) (distinct : all.toList.Nodup)
    (start : Address) (length : Nat) :
    ((index.numbersIn start length).filterMap fun number => all[number]?).Nodup := by
  refine (files.nodup_numbersIn start length).filterMap fun first second reference here there => ?_
  rw [← Array.getElem?_toList] at here there
  have bound := (List.getElem?_eq_some_iff.mp here).1
  exact (List.getElem?_inj bound distinct).mp (here.trans there.symm)

theorem any_numbersAt_iff (files : index.Files key all) (holds : Reference → Bool) :
    ((index.numbersAt address).any fun number => all[number]?.any holds) = true ↔
      ∃ reference ∈ all, key reference = some address ∧ holds reference = true := by
  simp only [List.any_eq_true, files.mem_iff, Option.any_eq_true]
  constructor
  · rintro ⟨number, ⟨reference, found, filed⟩, same, found', passes⟩
    rw [found, Option.some.injEq] at found'
    exact ⟨reference, Array.mem_of_getElem? found, filed, found' ▸ passes⟩
  · rintro ⟨reference, member, filed, passes⟩
    obtain ⟨number, here⟩ := Array.getElem?_of_mem member
    exact ⟨number, ⟨reference, here, filed⟩, reference, here, passes⟩

end Files

end ReferenceIndex

namespace CrossReferences
variable {references : CrossReferences} {reference other : Reference}

/-- It is enough to look among the references from the same source. -/
theorem contains_iff : references.contains reference = true ↔ reference ∈ references.all := by
  simp only [contains, List.any_eq_true, references.files_source.mem_iff, decide_eq_true_eq]
  constructor
  · rintro ⟨number, -, found⟩
    exact Array.mem_of_getElem? found
  · intro member
    obtain ⟨number, here⟩ := Array.getElem?_of_mem member
    exact ⟨number, ⟨reference, here, rfl⟩, here⟩

theorem all_insert (references : CrossReferences) (reference : Reference) :
    (references.insert reference).all =
      if reference ∈ references.all then references.all else references.all.push reference := by
  unfold insert
  by_cases known : reference ∈ references.all
  · rw [if_pos (contains_iff.mpr known), if_pos known]
  · rw [if_neg (mt contains_iff.mp known), if_neg known]

theorem mem_insert_iff : other ∈ (references.insert reference).all ↔
    other ∈ references.all ∨ other = reference := by
  rw [all_insert]
  split
  · next known =>
    constructor
    · exact .inl
    · rintro (member | rfl)
      · exact member
      · exact known
  · exact Array.mem_push

theorem nodup_insert (distinct : references.all.toList.Nodup) :
    (references.insert reference).all.toList.Nodup := by
  rw [all_insert]
  split
  · exact distinct
  · next new =>
    rw [Array.toList_push, List.nodup_append]
    refine ⟨distinct, by simp, ?_⟩
    rintro first member second added rfl
    rw [List.mem_singleton.mp added] at member
    exact new (Array.mem_toList_iff.mp member)

theorem mem_foldl_insert {added : List Reference} :
    other ∈ (added.foldl insert references).all ↔ other ∈ references.all ∨ other ∈ added := by
  induction added generalizing references with
  | nil => simp
  | cons reference added ih => rw [List.foldl_cons, ih, mem_insert_iff, List.mem_cons, or_assoc]

theorem nodup_foldl_insert (distinct : references.all.toList.Nodup) (added : List Reference) :
    (added.foldl insert references).all.toList.Nodup := by
  induction added generalizing references with
  | nil => exact distinct
  | cons reference added ih => exact ih (nodup_insert distinct)

theorem toList_foldl_insert (added : List Reference) :
    (added.foldl insert empty).all.toList = added.eraseDups := by
  induction added using List.reverseRecOn with
  | nil => rfl
  | append_singleton added reference ih =>
    rw [List.foldl_concat, all_insert, List.eraseDups_append, ← ih]
    split
    · next known =>
      have old : reference ∈ added := by simpa [empty] using mem_foldl_insert.mp known
      simp [List.removeAll, old]
    · next new =>
      have fresh : reference ∉ added := by simpa [empty, mem_foldl_insert] using new
      simp [List.removeAll, fresh, List.eraseDups_cons]

theorem isCodeTarget_iff {address : Address} : references.isCodeTarget address = true ↔
    ∃ reference ∈ references.all, reference.target = some address ∧ reference.isCode = true :=
  references.files_target.any_numbersAt_iff Reference.isCode

end CrossReferences

theorem Database.references_foldl_insertReference (added : List Reference) (database : Database) :
    (added.foldl insertReference database).references =
      added.foldl CrossReferences.insert database.references := by
  induction added generalizing database with
  | nil => rfl
  | cons reference added ih => exact ih (database.insertReference reference)

/-- However references are recorded in a fresh database, each is stored once, in
the order in which they first came. Look-ups by range give the stored ones from
or to the range, each once, and an address is a code target exactly if a stored
jump, branch or call leads to it. -/
theorem recorded_references_form_set (memory : Memory) (added : List Reference) :
    let database := added.foldl Database.insertReference (.ofMemory memory)
    let references := database.references
    references.all.toList = added.eraseDups ∧
    (∀ (start : Address) (length : Nat), start.toNat + length < UInt32.size →
      ((references.fromRange start length).Nodup ∧
        ∀ reference, reference ∈ references.fromRange start length ↔
          reference ∈ references.all ∧ start.toNat ≤ reference.source.toNat ∧
            reference.source.toNat < start.toNat + length) ∧
      (references.toRange start length).Nodup ∧
        ∀ reference, reference ∈ references.toRange start length ↔
          reference ∈ references.all ∧ ∃ target, reference.target = some target ∧
            start.toNat ≤ target.toNat ∧ target.toNat < start.toNat + length) ∧
    ∀ address, database.view.isCodeTarget address = true ↔
      ∃ reference ∈ references.all, reference.target = some address ∧
        (reference.kind = .code ∨ reference.kind = .subroutine) := by
  intro database references
  have stored : references.all.toList = added.eraseDups := by
    rw [← CrossReferences.toList_foldl_insert]
    exact congrArg (fun references => references.all.toList)
      (Database.references_foldl_insertReference added (.ofMemory memory))
  have distinct : references.all.toList.Nodup := by
    rw [stored, ← CrossReferences.toList_foldl_insert]
    exact CrossReferences.nodup_foldl_insert List.nodup_nil added
  refine ⟨stored, fun start length low => ⟨⟨?_, fun reference => ?_⟩, ?_, fun reference => ?_⟩,
    fun address => ?_⟩
  · exact references.files_source.nodup_lookups distinct start length
  · rw [CrossReferences.fromRange, references.files_source.mem_lookups_iff]
    simp [ReferenceIndex.inRange_iff low]
  · exact references.files_target.nodup_lookups distinct start length
  · rw [CrossReferences.toRange, references.files_target.mem_lookups_iff]
    simp [ReferenceIndex.inRange_iff low]
  · change references.isCodeTarget address = true ↔ _
    rw [CrossReferences.isCodeTarget_iff]
    simp [Reference.isCode]

/-- A repeated reference, one without a target, and two to one address. -/
theorem recorded_references_form_set_call :
    let call : Reference := ⟨0x10, some 0x40, .subroutine⟩
    let jump : Reference := ⟨0x14, none, .code⟩
    let load : Reference := ⟨0x10, some 0x40, .data⟩
    let database := [call, jump, call, load].foldl Database.insertReference (.ofMemory .empty)
    (0x40 : Address).toNat + 1 < UInt32.size ∧
      database.references.all = #[call, jump, load] ∧
      database.references.toRange 0x40 1 = [call, load] ∧
      (∀ reference, reference ∈ database.references.toRange 0x40 1 ↔
        reference ∈ database.references.all ∧ ∃ target, reference.target = some target ∧
          (0x40 : Address).toNat ≤ target.toNat ∧ target.toNat < (0x40 : Address).toNat + 1) ∧
      database.view.isCodeTarget 0x40 = true := by
  intro call jump load database
  have low : (0x40 : Address).toNat + 1 < UInt32.size := by decide
  have lookups := (recorded_references_form_set .empty [call, jump, call, load]).2.1 0x40 1 low
  exact ⟨low, by decide, by decide, lookups.2.2, by decide⟩

end H8
