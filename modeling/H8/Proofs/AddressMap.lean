import H8.AddressMap
import Mathlib.Data.List.Pairwise

/-! What the operations on finite maps do to the entries. -/

set_option autoImplicit false

namespace H8.AddressMap

variable {Value : Type} {map : AddressMap Value} {address : Address} {value : Value}
  {entry : Address × Value}

theorem eq_of_key {first second : Address × Value} (left : first ∈ map.entries)
    (right : second ∈ map.entries) (same : first.1 = second.1) : first = second := by
  by_contra different
  have : Std.Symm fun first second : Address × Value => first.1 ≠ second.1 := ⟨fun _ _ => Ne.symm⟩
  have apart : map.entries.Pairwise fun first second => first.1 ≠ second.1 :=
    map.sorted.imp fun smaller => UInt32.ne_of_lt smaller
  exact apart.forall left right different same

theorem get?_eq_some_iff : map.get? address = some value ↔ (address, value) ∈ map.entries := by
  unfold get?
  rw [Option.map_eq_some_iff]
  constructor
  · rintro ⟨⟨key, stored⟩, found, rfl⟩
    have same : key = address := by simpa using List.find?_some found
    exact same ▸ List.mem_of_find?_eq_some found
  · intro member
    cases found : map.entries.find? fun entry => entry.1 = address with
    | none => simpa using List.find?_eq_none.mp found _ member
    | some first =>
      have same : first.1 = address := by simpa using List.find?_some found
      rw [eq_of_key (List.mem_of_find?_eq_some found) member same]
      exact ⟨_, rfl, rfl⟩

theorem contains_iff : map.contains address = true ↔ ∃ value, (address, value) ∈ map.entries := by
  unfold contains
  rw [Option.isSome_iff_exists]
  exact exists_congr fun _ => get?_eq_some_iff

theorem ne_of_not_contains (fresh : map.contains address = false) (member : entry ∈ map.entries) :
    entry.1 ≠ address := by
  rintro rfl
  rw [contains_iff.mpr ⟨entry.2, member⟩] at fresh
  cases fresh

theorem mem_insertEntry_iff {entries : List (Address × Value)}
    (sorted : entries.Pairwise fun first second => first.1 < second.1) :
    entry ∈ insertEntry address value entries ↔
      entry = (address, value) ∨ entry ∈ entries ∧ entry.1 ≠ address := by
  induction entries with
  | nil => simp [insertEntry]
  | cons first rest ih =>
    obtain ⟨below, tail⟩ := List.pairwise_cons.mp sorted
    simp only [insertEntry]
    split
    · next smaller =>
      -- All keys are above the new one.
      have above : ∀ other ∈ first :: rest, other.1 ≠ address := by
        intro other member
        rcases List.mem_cons.mp member with rfl | later
        · exact (UInt32.ne_of_lt smaller).symm
        · exact (UInt32.ne_of_lt (UInt32.lt_trans smaller (below other later))).symm
      rw [List.mem_cons (b := (address, value))]
      exact or_congr_right ⟨fun member => ⟨member, above entry member⟩, And.left⟩
    · split
      · next same =>
        have above : ∀ other ∈ rest, other.1 ≠ address := fun other later =>
          (UInt32.ne_of_lt (same ▸ below other later)).symm
        rw [List.mem_cons]
        refine or_congr_right ⟨fun later => ⟨.tail first later, above entry later⟩, ?_⟩
        rintro ⟨member, different⟩
        rcases List.mem_cons.mp member with rfl | later
        · exact absurd same.symm different
        · exact later
      · next different =>
        rw [List.mem_cons, ih tail, List.mem_cons]
        constructor
        · rintro (rfl | rfl | ⟨later, other⟩)
          · exact .inr ⟨.inl rfl, Ne.symm different⟩
          · exact .inl rfl
          · exact .inr ⟨.inr later, other⟩
        · rintro (rfl | ⟨rfl | later, other⟩)
          · exact .inr (.inl rfl)
          · exact .inl rfl
          · exact .inr (.inr ⟨later, other⟩)

theorem mem_insert_iff : entry ∈ (map.insert address value).entries ↔
    entry = (address, value) ∨ entry ∈ map.entries ∧ entry.1 ≠ address :=
  mem_insertEntry_iff map.sorted

theorem contains_insert : (map.insert address value).contains address = true :=
  contains_iff.mpr ⟨value, mem_insert_iff.mpr (.inl rfl)⟩

theorem subset_insert (fresh : map.contains address = false) :
    map.entries ⊆ (map.insert address value).entries := by
  intro entry member
  exact mem_insert_iff.mpr (.inr ⟨member, ne_of_not_contains fresh member⟩)

theorem length_insertEntry {entries : List (Address × Value)}
    (fresh : ∀ entry ∈ entries, entry.1 ≠ address) :
    (insertEntry address value entries).length = entries.length + 1 := by
  induction entries with
  | nil => rfl
  | cons first rest ih =>
    simp only [insertEntry]
    split
    · rfl
    · rw [if_neg (fresh first (by simp)).symm, List.length_cons, List.length_cons,
        ih fun entry later => fresh entry (.tail first later)]

theorem length_insert (fresh : map.contains address = false) :
    (map.insert address value).entries.length = map.entries.length + 1 :=
  length_insertEntry fun _ => ne_of_not_contains fresh

theorem get?_erase (other : Address) :
    (map.erase address).get? other = if other = address then none else map.get? other := by
  apply Option.ext
  intro stored
  rw [get?_eq_some_iff]
  change (other, stored) ∈ map.entries.filter _ ↔ _
  rw [List.mem_filter]
  split
  · next same => simp [same]
  · next different => simp [different, get?_eq_some_iff]

theorem contains_insert_of_contains {other : Address} (known : map.contains other = true) :
    (map.insert address value).contains other = true := by
  unfold contains at known ⊢
  rw [get?_insert]
  split
  · rfl
  · exact known

theorem insertEntry_of_mem {entries : List (Address × Value)}
    (sorted : entries.Pairwise fun first second => first.1 < second.1)
    (member : (address, value) ∈ entries) : insertEntry address value entries = entries := by
  induction entries with
  | nil => cases member
  | cons first rest ih =>
    obtain ⟨below, tail⟩ := List.pairwise_cons.mp sorted
    unfold insertEntry
    rcases List.mem_cons.mp member with rfl | later
    · rw [if_neg (UInt32.lt_irrefl _), if_pos rfl]
    · have above := below _ later
      rw [if_neg (UInt32.not_lt.mpr (UInt32.le_of_lt above)), if_neg (UInt32.ne_of_lt above).symm,
        ih tail later]

theorem insert_of_get? (found : map.get? address = some value) : map.insert address value = map := by
  have same := insertEntry_of_mem map.sorted (get?_eq_some_iff.mp found)
  unfold insert
  simp only [same]

theorem below?_eq_some (found : map.below? address = some entry) :
    entry ∈ map.entries ∧ entry.1 < address := by
  have last := List.mem_of_getLast? found
  exact ⟨(List.takeWhile_prefix _).subset last, by simpa using List.all_eq_true.mp List.all_takeWhile entry last⟩

theorem takeWhile_eq_filter {entries : List (Address × Value)} (passes : Address → Bool)
    (sorted : entries.Pairwise fun first second => first.1 < second.1)
    (down : ∀ {low high : Address}, low < high → passes high = true → passes low = true) :
    entries.takeWhile (fun entry => passes entry.1) = entries.filter fun entry => passes entry.1 := by
  induction entries with
  | nil => rfl
  | cons first rest ih =>
    obtain ⟨below, tail⟩ := List.pairwise_cons.mp sorted
    cases start : passes first.1 with
    | true => simp [start, ih tail]
    | false =>
      simp only [List.takeWhile_cons, List.filter_cons, start]
      apply Eq.symm
      apply List.filter_eq_nil_iff.mpr
      intro entry later accepted
      rw [down (below entry later) accepted] at start
      cases start

theorem getLast?_eq_some_iff {entries : List (Address × Value)}
    (sorted : entries.Pairwise fun first second => first.1 < second.1) :
    entries.getLast? = some entry ↔ entry ∈ entries ∧ ∀ other ∈ entries, other.1 ≤ entry.1 := by
  constructor
  · intro last
    obtain ⟨front, rfl⟩ := List.getLast?_eq_some_iff.mp last
    refine ⟨by simp, fun other member => ?_⟩
    rcases List.mem_append.mp member with earlier | same
    · exact UInt32.le_of_lt ((List.pairwise_append.mp sorted).2.2 other earlier entry (by simp))
    · exact List.mem_singleton.mp same ▸ UInt32.le_refl _
  · rintro ⟨member, greatest⟩
    obtain ⟨front, back, rfl⟩ := List.append_of_mem member
    cases back with
    | nil => simp
    | cons next back =>
      have above := List.rel_of_pairwise_cons (List.pairwise_append.mp sorted).2.1 (.head back)
      exact absurd (greatest next (by simp)) (UInt32.not_le.mpr above)

theorem below?_eq_some_iff : map.below? address = some entry ↔
    entry ∈ map.entries ∧ entry.1 < address ∧
      ∀ other ∈ map.entries, other.1 < address → other.1 ≤ entry.1 := by
  have down {low high : Address} (lower : low < high) (passes : decide (high < address) = true) :
      decide (low < address) = true := by
    rw [decide_eq_true_eq] at passes ⊢
    exact UInt32.lt_trans lower passes
  unfold below?
  rw [takeWhile_eq_filter (fun key => decide (key < address)) map.sorted down,
    getLast?_eq_some_iff (map.sorted.filter _)]
  simp [and_assoc]

theorem atMost?_eq_some_iff : map.atMost? address = some entry ↔
    entry ∈ map.entries ∧ entry.1 ≤ address ∧
      ∀ other ∈ map.entries, other.1 ≤ address → other.1 ≤ entry.1 := by
  have down {low high : Address} (lower : low < high) (passes : decide (high ≤ address) = true) :
      decide (low ≤ address) = true := by
    rw [decide_eq_true_eq] at passes ⊢
    exact UInt32.le_trans (UInt32.le_of_lt lower) passes
  unfold atMost?
  rw [takeWhile_eq_filter (fun key => decide (key ≤ address)) map.sorted down,
    getLast?_eq_some_iff (map.sorted.filter _)]
  simp [and_assoc]

end H8.AddressMap
