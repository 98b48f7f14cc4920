import H8.Memory
import Mathlib.Data.List.Basic

/-! Which segment a byte is read from.

A read takes all its bytes from one segment, the first that has the address it
starts at. An address further on may lie in a segment that was installed before
that one, and is then hidden from the read. Where nothing is hidden, a read gives
what its addresses give one by one.
-/

set_option autoImplicit false

namespace H8

theorem Address.toNat_saturatingAdd (address : Address) (distance : Nat) :
    (saturatingAdd address distance).toNat = min (address.toNat + distance) (UInt32.size - 1) := by
  unfold saturatingAdd
  split
  · next inside =>
    have small : distance < UInt32.size := by omega
    rw [UInt32.toNat_add, UInt32.toNat_ofNat_of_lt' small, Nat.mod_eq_of_lt inside]
    omega
  · next beyond =>
    change 4294967295 = _
    have size : UInt32.size = 4294967296 := rfl
    omega

namespace Segment
variable {segment : Segment} {address : Address}

theorem toNat_stop (segment : Segment) :
    segment.stop.toNat = min (segment.start.toNat + segment.data.size % UInt32.size) (UInt32.size - 1) :=
  Address.toNat_saturatingAdd _ _

theorem lt_of_contains (inside : segment.contains address = true) :
    segment.start.toNat ≤ address.toNat ∧
      address.toNat < segment.start.toNat + segment.data.size ∧ address.toNat + 1 < UInt32.size := by
  have size := Nat.mod_le segment.data.size UInt32.size
  unfold contains at inside
  rw [Bool.and_eq_true, decide_eq_true_eq, decide_eq_true_eq, UInt32.le_iff_toNat_le,
    UInt32.lt_iff_toNat_lt, toNat_stop] at inside
  omega

def EndsBelow (segment : Segment) : Prop :=
  segment.start.toNat + segment.data.size < UInt32.size

instance (segment : Segment) : Decidable segment.EndsBelow := inferInstanceAs (Decidable (_ < _))

theorem contains_iff (ends : segment.EndsBelow) : segment.contains address = true ↔
    segment.start.toNat ≤ address.toNat ∧
      address.toNat < segment.start.toNat + segment.data.size := by
  unfold EndsBelow at ends
  have size := Nat.mod_eq_of_lt (by omega : segment.data.size < UInt32.size)
  unfold contains
  rw [Bool.and_eq_true, decide_eq_true_eq, decide_eq_true_eq, UInt32.le_iff_toNat_le,
    UInt32.lt_iff_toNat_lt, toNat_stop, size]
  omega

def byte? (segment : Segment) (address : Address) : Option UInt8 :=
  segment.data[address.toNat - segment.start.toNat]?

end Segment

namespace Memory
variable {memory : Memory} {segment : Segment} {start address : Address} {count offset : Nat}

theorem contains_of_segmentAt? (found : memory.segmentAt? address = some segment) :
    segment.contains address = true := by
  simpa using List.find?_some found

theorem isMapped_iff : memory.isMapped address = true ↔
    ∃ segment ∈ memory.segments, segment.contains address = true := by
  unfold isMapped segmentAt?
  rw [List.find?_isSome]

theorem low_of_isMapped (mapped : memory.isMapped address = true) : address.toNat + 1 < UInt32.size := by
  obtain ⟨segment, -, inside⟩ := isMapped_iff.mp mapped
  exact (Segment.lt_of_contains inside).2.2

theorem read_eq (found : memory.segmentAt? address = some segment) (count : Nat) :
    memory.read address count =
      (segment.data.toList.drop (address.toNat - segment.start.toNat)).take count := by
  simp only [read, found, Segment.read, contains_of_segmentAt? found, if_true, Array.toList_extract,
    List.extract, Nat.add_sub_cancel_left]

theorem length_read_le (memory : Memory) (address : Address) (count : Nat) :
    (memory.read address count).length ≤ count := by
  cases found : memory.segmentAt? address with
  | none => simp [read, found]
  | some segment =>
    rw [read_eq found]
    exact List.length_take_le _ _

theorem read_one (mapped : memory.isMapped address = true) :
    ∃ byte, memory.read address 1 = [byte] := by
  obtain ⟨segment, found⟩ := Option.isSome_iff_exists.mp mapped
  have bounds := Segment.lt_of_contains (contains_of_segmentAt? found)
  rw [read_eq found]
  apply List.length_eq_one_iff.mp
  rw [List.length_take, List.length_drop, Array.length_toList]
  omega

theorem readByte?_eq (found : memory.segmentAt? address = some segment) :
    memory.readByte? address = segment.byte? address := by
  rw [readByte?, read_eq found, List.head?_take, if_neg (by decide), List.head?_drop,
    Array.getElem?_toList, Segment.byte?]

theorem exists_segmentAt? (inside : offset < (memory.read start count).length) :
    ∃ segment, memory.segmentAt? start = some segment ∧
      start.toNat + offset < segment.start.toNat + segment.data.size := by
  cases found : memory.segmentAt? start with
  | none => simp [read, found] at inside
  | some segment =>
    have bounds := Segment.lt_of_contains (contains_of_segmentAt? found)
    rw [read_eq found, List.length_take, List.length_drop, Array.length_toList] at inside
    exact ⟨segment, rfl, by omega⟩

theorem toNat_add_of_lt (low : start.toNat + offset < UInt32.size) :
    (start + UInt32.ofNat offset).toNat = start.toNat + offset := by
  rw [UInt32.toNat_add, UInt32.toNat_ofNat_of_lt' (by omega), Nat.mod_eq_of_lt low]

/-- That segment supplies the byte, whatever other segments have there. -/
theorem getElem?_read (found : memory.segmentAt? start = some segment) (short : offset < count)
    (low : start.toNat + offset < UInt32.size) :
    (memory.read start count)[offset]? = segment.byte? (start + UInt32.ofNat offset) := by
  have bounds := Segment.lt_of_contains (contains_of_segmentAt? found)
  have distance : start.toNat + offset - segment.start.toNat =
      start.toNat - segment.start.toNat + offset := by omega
  rw [read_eq found, List.getElem?_take_of_lt short, List.getElem?_drop, Array.getElem?_toList,
    Segment.byte?, toNat_add_of_lt low, distance]

/-- A read from the first address reaches the second in its own segment, although
a segment that was installed before that one has a different byte there. -/
def Hides (memory : Memory) (start address : Address) : Prop :=
  ∃ before segment after, memory.segments = before ++ segment :: after ∧
    (∀ earlier ∈ before, earlier.contains start = false) ∧
    segment.contains start = true ∧ start ≤ address ∧ segment.contains address = true ∧
    ∃ earlier, (before.find? fun segment => segment.contains address) = some earlier ∧
      earlier.byte? address ≠ segment.byte? address

/-- No segment starts inside another that was installed after it. -/
def Layered (memory : Memory) : Prop :=
  memory.segments.Pairwise fun earlier later =>
    earlier.start ≤ later.start ∨ later.stop ≤ earlier.start

theorem segmentAt?_of_split {before after : List Segment}
    (split : memory.segments = before ++ segment :: after) (inside : segment.contains address = true) :
    memory.segmentAt? address =
      some ((before.find? fun segment => segment.contains address).getD segment) := by
  unfold segmentAt?
  rw [split, List.find?_append, List.find?_cons, inside]
  cases before.find? fun segment => segment.contains address <;> rfl

theorem Layered.not_hides (layered : memory.Layered) : ¬ memory.Hides start address := by
  rintro ⟨before, segment, after, split, first, starts, onward, reaches, earlier, found, -⟩
  have member := List.mem_of_find?_eq_some found
  have covers : earlier.contains address = true := by simpa using List.find?_some found
  have misses := first earlier member
  unfold Layered at layered
  rw [split, List.pairwise_append] at layered
  have order := layered.2.2 earlier member segment List.mem_cons_self
  simp only [Segment.contains, Bool.and_eq_true, Bool.and_eq_false_iff, decide_eq_true_eq,
    decide_eq_false_iff_not] at starts reaches covers misses
  -- The earlier segment has the second address and not the first, so it starts between them.
  have between : start < earlier.start := by
    rcases misses with above | below
    · exact UInt32.not_le.mp above
    · exact absurd (UInt32.lt_of_le_of_lt onward covers.2) below
  rcases order with low | high
  · exact UInt32.lt_irrefl _ (UInt32.lt_of_lt_of_le between (UInt32.le_trans low starts.1))
  · exact UInt32.lt_irrefl _ (UInt32.lt_of_lt_of_le reaches.2 (UInt32.le_trans high covers.1))

theorem getElem?_read_eq_iff (ends : ∀ segment ∈ memory.segments, segment.EndsBelow)
    (inside : offset < (memory.read start count).length) :
    (memory.read start count)[offset]? = memory.readByte? (start + UInt32.ofNat offset) ↔
      ¬ memory.Hides start (start + UInt32.ofNat offset) := by
  obtain ⟨segment, found, reaches⟩ := exists_segmentAt? inside
  have short : offset < count := Nat.lt_of_lt_of_le inside (length_read_le memory start count)
  have limit : segment.EndsBelow := ends segment (List.mem_of_find?_eq_some found)
  have low : start.toNat + offset < UInt32.size := Nat.lt_trans reaches limit
  have sum := toNat_add_of_lt low
  rw [getElem?_read found short low]
  constructor
  · rintro same ⟨before, holder, after, split, first, starts, -, covers, earlier, hidden, differs⟩
    have taken : memory.segmentAt? start = some holder := by
      rw [segmentAt?_of_split split starts, List.find?_eq_none.mpr (by simpa using first)]
      rfl
    rw [found, Option.some.injEq] at taken
    rw [readByte?_eq (segmentAt?_of_split split covers), hidden, taken] at same
    exact differs same.symm
  · intro visible
    obtain ⟨starts, before, after, split, first⟩ := List.find?_eq_some_iff_append.mp found
    have bounds := Segment.lt_of_contains starts
    have covers : segment.contains (start + UInt32.ofNat offset) = true :=
      (Segment.contains_iff limit).mpr ⟨by omega, by omega⟩
    rw [readByte?_eq (segmentAt?_of_split split covers)]
    cases hidden : before.find? fun segment => segment.contains (start + UInt32.ofNat offset) with
    | none => rfl
    | some earlier =>
      by_contra differs
      exact visible ⟨before, segment, after, split, by simpa using first, starts,
        UInt32.le_iff_toNat_le.mpr (by omega), covers, earlier, hidden, Ne.symm differs⟩

end Memory

/-- A byte of a read is the one that its address has by itself, exactly unless a
segment that was installed earlier is hidden there. Nothing is hidden if no
segment starts inside a later one, for instance if no two have a common address. -/
theorem read_agrees_iff_not_hides (memory : Memory)
    (ends : ∀ segment ∈ memory.segments, segment.EndsBelow) (start : Address) (count : Nat) :
    (∀ offset < (memory.read start count).length,
      ((memory.read start count)[offset]? = memory.readByte? (start + UInt32.ofNat offset) ↔
        ¬ memory.Hides start (start + UInt32.ofNat offset))) ∧
    (memory.Layered → ∀ offset < (memory.read start count).length,
      (memory.read start count)[offset]? = memory.readByte? (start + UInt32.ofNat offset)) := by
  refine ⟨fun offset inside => Memory.getElem?_read_eq_iff ends inside, fun layered offset inside => ?_⟩
  exact (Memory.getElem?_read_eq_iff ends inside).mpr layered.not_hides

/-- Two segments that overlap, the lower one installed first: the higher one is
read from its own addresses on only. -/
theorem read_agrees_iff_not_hides_layered :
    let memory := (Memory.empty.install ⟨"ROM", 0, #[0x12, 0x34, 0x56]⟩).install
      ⟨"RAM", 1, #[0xAA, 0xBB, 0xCC]⟩
    (∀ segment ∈ memory.segments, segment.EndsBelow) ∧ memory.Layered ∧
      2 < (memory.read 0 8).length ∧ (memory.read 0 8)[2]? = memory.readByte? 2 ∧
      ¬ memory.Hides 0 2 ∧ memory.read 0 8 = [0x12, 0x34, 0x56] := by
  intro memory
  have ends : ∀ segment ∈ memory.segments, segment.EndsBelow := by decide
  have layered : memory.Layered := by
    unfold Memory.Layered
    decide
  have inside : 2 < (memory.read 0 8).length := by decide
  obtain ⟨exactly, agrees⟩ := read_agrees_iff_not_hides memory ends 0 8
  exact ⟨ends, layered, inside, agrees layered 2 inside,
    (exactly 2 inside).mp (agrees layered 2 inside), by decide⟩

/-- A read that starts in front of an earlier segment passes over its byte, and so
does a number that is read there. -/
theorem read_passes_over_earlier_segment :
    let memory := (Memory.empty.install ⟨"RAM", 2, #[0xAA]⟩).install
      ⟨"ROM", 0, #[0x12, 0x34, 0x56, 0x78]⟩
    (∀ segment ∈ memory.segments, segment.EndsBelow) ∧ 2 < (memory.read 0 4).length ∧
      (memory.read 0 4)[2]? = some 0x56 ∧ memory.readByte? (0 + 2) = some 0xAA ∧
      memory.readNumber? 0 4 = some 0x12345678 := by
  decide

end H8
