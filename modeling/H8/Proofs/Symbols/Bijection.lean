import H8.Input
import H8.Proofs.Symbols
import Mathlib.Data.List.Nodup

/-! Names and addresses after scans.

Scans name places with generated labels only, in whatever mode and order they
run. Such names stand for their addresses one to one, in both indices and in
the list of symbols, and a user who types one is understood.
-/

set_option autoImplicit false

namespace H8

open Assembly (Label)

namespace Symbols

theorem nodup_map_of_index {Key : Type} {all : Array Symbol} (key : Symbol → Key)
    (index : Key → Option Nat)
    (finds : ∀ value number, index value = some number ↔
      ∃ symbol, all[number]? = some symbol ∧ key symbol = value) : (all.toList.map key).Nodup := by
  rw [List.nodup_iff_getElem?_ne_getElem?]
  intro first second before inside same
  rw [List.length_map, Array.length_toList] at inside
  have earlier : all[first]? = some all[first] := Array.getElem?_eq_getElem (Nat.lt_trans before inside)
  have later : all[second]? = some all[second] := Array.getElem?_eq_getElem inside
  rw [List.getElem?_map, List.getElem?_map, Array.getElem?_toList, Array.getElem?_toList, earlier,
    later, Option.map_some, Option.map_some, Option.some.injEq] at same
  have found := (finds _ first).mpr ⟨_, earlier, rfl⟩
  rw [same, (finds _ second).mpr ⟨_, later, rfl⟩] at found
  exact absurd (Option.some.inj found) (Nat.ne_of_gt before)

theorem ofText?_generatedLabel (kind : ReferenceKind) (address : Address) :
    Label.ofText? (generatedLabel kind address).name = some (generatedLabel kind address) := by
  have digits : ∀ c ∈ Text.hexDigits address.toNat, Label.isChar c = true := by
    intro c member
    simp [Label.isChar, Text.isAlphanum_of_mem_hexDigits member]
  have spelled : (generatedLabel kind address).name.toList =
      kind.labelStem.toList ++ '_' :: Text.hexDigits address.toNat := by
    simp [generatedLabel, Text.hex]
  -- No stem starts with a digit, so the name is no number.
  have starts : ∃ first rest, kind.labelStem.toList ++ ['_'] = first :: rest ∧
      Label.isStartChar first = true ∧ rest.all Label.isChar = true := by
    cases kind <;> exact ⟨_, _, rfl, by decide, by decide⟩
  obtain ⟨first, rest, stem, start, inner⟩ := starts
  have whole : (generatedLabel kind address).name.toList =
      first :: (rest ++ Text.hexDigits address.toNat) := by
    rw [spelled, List.append_cons, stem, List.cons_append]
  unfold Label.ofText?
  rw [whole]
  simp only [start, List.all_append, inner, Bool.true_and, List.all_eq_true.mpr digits, if_true]

namespace Indexed
variable {symbols : Symbols}

theorem nodup_labels (indexed : Indexed symbols) : (symbols.all.toList.map Symbol.label).Nodup :=
  nodup_map_of_index _ _ indexed.byLabel

theorem nodup_addresses (indexed : Indexed symbols) :
    (symbols.all.toList.map Symbol.address).Nodup :=
  nodup_map_of_index _ _ indexed.byAddress

theorem address?_of_name (indexed : Indexed symbols) {label : Label} {address : Address}
    (known : symbols.label? address = some label) :
    Input.address? symbols.address? label.name = some address := by
  have member := indexed.label?_eq_some_iff.mp known
  obtain ⟨kind, made⟩ := indexed.generated _ member
  dsimp only at made
  subst made
  unfold Input.address?
  rw [ofText?_generatedLabel, Option.bind_some, indexed.address?_eq_some_iff.mpr member]

end Indexed

end Symbols

def Database.scanEach (database : Database) (scans : List (List Address × Mode)) : Database :=
  scans.foldl (fun database scan => (database.scan scan.1 scan.2).1) database

theorem Database.indexed_scanEach {database : Database} (indexed : database.symbols.Indexed)
    (scans : List (List Address × Mode)) : (database.scanEach scans).symbols.Indexed := by
  induction scans generalizing database with
  | nil => exact indexed
  | cons scan scans ih => exact ih (indexed_scan indexed scan.1 scan.2)

/-- After any scans, no label and no address has two symbols, the two lookups
find exactly the symbols there are, and each name is read as its address. -/
theorem scanned_names_bijective (memory : Memory) (scans : List (List Address × Mode)) :
    let database := (Database.ofMemory memory).scanEach scans
    (database.symbols.all.toList.map Symbol.label).Nodup ∧
    (database.symbols.all.toList.map Symbol.address).Nodup ∧
    ∀ address label,
      (database.symbols.label? address = some label ↔ ⟨label, address⟩ ∈ database.symbols.all) ∧
      (database.symbols.label? address = some label ↔
        database.symbols.address? label = some address) ∧
      (database.symbols.label? address = some label →
        Input.address? database.symbols.address? label.name = some address) := by
  intro database
  have indexed : database.symbols.Indexed := Database.indexed_scanEach Symbols.indexed_empty scans
  exact ⟨indexed.nodup_labels, indexed.nodup_addresses, fun address label =>
    ⟨indexed.label?_eq_some_iff, indexed.label?_eq_some_iff_address?, indexed.address?_of_name⟩⟩

/-- A branch target that becomes a function in a later scan keeps its name. -/
theorem scanned_names_bijective_branch :
    let memory : Memory := .ofImage #[0x40, 0x00, 0x54, 0x70] 0
    let scans : List (List Address × Mode) := [([0], ⟨.h8300h, .normal⟩), ([2], ⟨.h8s, .advanced⟩)]
    let database := (Database.ofMemory memory).scanEach scans
    database.symbols.label? 2 = some ⟨"loc_2"⟩ ∧ database.functions.contains 2 = true ∧
      Input.address? database.symbols.address? "loc_2" = some 2 := by
  intro memory scans database
  let begun := (Trace.start (.ofMemory memory) [0]).runFor ⟨.h8300h, .normal⟩ 4
  let first := begun.conclude ⟨.h8300h, .normal⟩
  let resumed := (Trace.start first.1 [2]).runFor ⟨.h8s, .advanced⟩ 2
  let second := resumed.conclude ⟨.h8s, .advanced⟩
  have facts : (begun.pending = [] ∧ resumed.pending = []) ∧
      second.1.symbols.label? 2 = some ⟨"loc_2"⟩ ∧ second.1.functions.contains 2 = true := by
    decide +kernel
  obtain ⟨⟨finished, finished'⟩, named, function⟩ := facts
  have scanned : (Database.ofMemory memory).scan [0] ⟨.h8300h, .normal⟩ = first :=
    Database.scan_eq_runFor 4 finished
  have again : database = second.1 := by
    change (((Database.ofMemory memory).scan [0] ⟨.h8300h, .normal⟩).1.scan [2] ⟨.h8s, .advanced⟩).1 = _
    rw [scanned, Database.scan_eq_runFor 2 finished']
  rw [← again] at named function
  exact ⟨named, function, ((scanned_names_bijective memory scans).2.2 2 ⟨"loc_2"⟩).2.2 named⟩

end H8
