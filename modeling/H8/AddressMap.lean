import H8.Mode

/-! Finite maps from addresses, in increasing order of address. -/

set_option autoImplicit false

namespace H8

/-- A finite map from addresses. The keys are strictly increasing. -/
structure AddressMap (Value : Type) where
  entries : List (Address × Value)
  sorted : entries.Pairwise fun first second => first.1 < second.1

namespace AddressMap

variable {Value : Type}

def empty : AddressMap Value := ⟨[], .nil⟩

instance : Inhabited (AddressMap Value) := ⟨empty⟩

def insertEntry (address : Address) (value : Value) :
    List (Address × Value) → List (Address × Value)
  | [] => [(address, value)]
  | first :: rest =>
    if address < first.1 then (address, value) :: first :: rest
    else if address = first.1 then (address, value) :: rest
    else first :: insertEntry address value rest

theorem mem_insertEntry {address : Address} {value : Value} {entries : List (Address × Value)}
    {entry : Address × Value} (member : entry ∈ insertEntry address value entries) :
    entry = (address, value) ∨ entry ∈ entries := by
  induction entries with
  | nil => simpa [insertEntry] using member
  | cons first rest ih =>
    simp only [insertEntry] at member
    split at member
    · simpa using member
    · split at member
      · rcases List.mem_cons.mp member with same | member
        · exact .inl same
        · exact .inr (List.mem_cons_of_mem first member)
      · rcases List.mem_cons.mp member with same | member
        · exact .inr (same ▸ List.mem_cons_self)
        · exact (ih member).imp id (List.mem_cons_of_mem first)

theorem sorted_insertEntry (address : Address) (value : Value) (entries : List (Address × Value))
    (sorted : entries.Pairwise fun first second => first.1 < second.1) :
    (insertEntry address value entries).Pairwise fun first second => first.1 < second.1 := by
  induction entries with
  | nil => simp [insertEntry]
  | cons first rest ih =>
    obtain ⟨below, tail⟩ := List.pairwise_cons.mp sorted
    simp only [insertEntry]
    split
    · next smaller =>
      refine List.pairwise_cons.mpr ⟨fun entry member => ?_, sorted⟩
      rcases List.mem_cons.mp member with same | member
      · exact same ▸ smaller
      · exact UInt32.lt_trans smaller (below entry member)
    · split
      · next same =>
        exact List.pairwise_cons.mpr ⟨fun entry member => same ▸ below entry member, tail⟩
      · next notSmaller different =>
        refine List.pairwise_cons.mpr ⟨fun entry member => ?_, ih tail⟩
        rcases mem_insertEntry member with same | member
        · subst same
          exact UInt32.lt_of_le_of_ne (UInt32.not_lt.mp notSmaller) (Ne.symm different)
        · exact below entry member

def insert (map : AddressMap Value) (address : Address) (value : Value) : AddressMap Value :=
  ⟨insertEntry address value map.entries, sorted_insertEntry address value _ map.sorted⟩

def erase (map : AddressMap Value) (address : Address) : AddressMap Value :=
  ⟨map.entries.filter fun entry => entry.1 ≠ address, map.sorted.filter _⟩

def get? (map : AddressMap Value) (address : Address) : Option Value :=
  (map.entries.find? fun entry => entry.1 = address).map Prod.snd

def contains (map : AddressMap Value) (address : Address) : Bool :=
  (map.get? address).isSome

def below? (map : AddressMap Value) (address : Address) : Option (Address × Value) :=
  (map.entries.takeWhile fun entry => entry.1 < address).getLast?

def atMost? (map : AddressMap Value) (address : Address) : Option (Address × Value) :=
  (map.entries.takeWhile fun entry => entry.1 ≤ address).getLast?

/-- Whether some key is at least the first address and below the second. -/
def meets (map : AddressMap Value) (start stop : Address) : Bool :=
  map.entries.any fun entry => start ≤ entry.1 && entry.1 < stop

theorem find?_insertEntry (address other : Address) (value : Value)
    (entries : List (Address × Value)) :
    (insertEntry address value entries).find? (fun entry => entry.1 = other) =
      if address = other then some (address, value)
      else entries.find? fun entry => entry.1 = other := by
  induction entries with
  | nil => by_cases found : address = other <;> simp [insertEntry, found]
  | cons first rest ih =>
    simp only [insertEntry]
    split
    · by_cases found : address = other <;> simp [found]
    · split
      · next same => by_cases found : address = other <;> simp [found, ← same]
      · next different =>
        rw [List.find?_cons, List.find?_cons, ih]
        by_cases here : first.1 = other
        · simp [here, here ▸ different]
        · simp [here]

theorem get?_insert {map : AddressMap Value} {address : Address} {value : Value}
    (other : Address) :
    (map.insert address value).get? other =
      if other = address then some value else map.get? other := by
  unfold get?
  rw [insert, find?_insertEntry]
  by_cases found : other = address
  · simp [found]
  · simp [found, Ne.symm found]

def keys (map : AddressMap Value) : List Address := map.entries.map Prod.fst

end AddressMap

end H8
