import H8.Proofs.Database

/-! Marked instructions never overlap.

Marking and both queries look only at the nearest neighbour of an address.
That is enough because the instructions marked before are apart: of two heads
below an address only the nearer can reach it.
-/

set_option autoImplicit false

namespace H8

/-- Saturation is not seen from below the highest address. -/
theorem Address.lt_saturatingAdd_iff {limit : Address} (low : limit.toNat + 1 < UInt32.size)
    (address : Address) (distance : Nat) :
    limit < saturatingAdd address distance ↔ limit.toNat < address.toNat + distance := by
  rw [UInt32.lt_iff_toNat_lt, toNat_saturatingAdd]
  omega

namespace Heads
variable {heads : Heads} {address : Address} {length : Nat} {head : Address × Nat}

structure Proper (head : Address × Nat) : Prop where
  pos : 0 < head.2
  short : head.2 < UInt32.size
  low : head.1.toNat + 1 < UInt32.size

structure Apart (heads : Heads) : Prop where
  proper : ∀ head ∈ heads.entries, Proper head
  eq_of_overlap : ∀ first ∈ heads.entries, ∀ second ∈ heads.entries,
    Overlap first second → first = second

theorem Overlap.symm {first second : Address × Nat} (overlap : Overlap first second) :
    Overlap second first := And.symm overlap

theorem apart_empty : Apart .empty :=
  ⟨(fun _ member => nomatch member), (fun _ member => nomatch member)⟩

namespace Apart

theorem below?_eq_some (apart : Apart heads) (member : head ∈ heads.entries)
    (below : head.1.toNat < address.toNat) (reaches : address.toNat ≤ head.1.toNat + head.2) :
    heads.below? address = some head := by
  apply AddressMap.below?_eq_some_iff.mpr
  refine ⟨member, UInt32.lt_iff_toNat_lt.mpr below, fun other known before => ?_⟩
  rw [UInt32.lt_iff_toNat_lt] at before
  rw [UInt32.le_iff_toNat_le]
  by_contra nearer
  have pos := (apart.proper other known).pos
  have overlap : Overlap head other := ⟨by omega, by omega⟩
  rw [apart.eq_of_overlap head member other known overlap] at nearer
  omega

theorem overlaps_iff (apart : Apart heads) (proper : Proper (address, length)) :
    heads.overlaps address length = true ↔
      ∃ head ∈ heads.entries, Overlap (address, length) head := by
  constructor
  · exact overlap_of_overlaps (fun head member => (apart.proper head member).pos) proper.pos
  · rintro ⟨head, member, reaches, starts⟩
    dsimp only at reaches starts
    unfold overlaps
    rw [Bool.or_eq_true_iff]
    by_cases below : head.1.toNat < address.toNat
    · apply Or.inl
      rw [apart.below?_eq_some member below (by omega)]
      exact decide_eq_true ((Address.lt_saturatingAdd_iff proper.low _ _).mpr reaches)
    · apply Or.inr
      apply List.any_eq_true.mpr
      have low := (apart.proper head member).low
      have inside := (Address.lt_saturatingAdd_iff low address length).mpr starts
      exact ⟨head, member, by simp [UInt32.le_iff_toNat_le, inside]; omega⟩

theorem insert (apart : Apart heads) (proper : Proper (address, length))
    (free : heads.overlaps address length = false) : Apart (heads.insert address length) := by
  have clear : ∀ head ∈ heads.entries, ¬ Overlap (address, length) head := by
    intro head member overlap
    rw [(apart.overlaps_iff proper).mpr ⟨head, member, overlap⟩] at free
    cases free
  constructor
  · intro head member
    rcases AddressMap.mem_insert_iff.mp member with rfl | ⟨known, -⟩
    · exact proper
    · exact apart.proper head known
  · intro first left second right overlap
    rcases AddressMap.mem_insert_iff.mp left with rfl | ⟨left, -⟩
    · rcases AddressMap.mem_insert_iff.mp right with rfl | ⟨right, -⟩
      · rfl
      · exact absurd overlap (clear second right)
    · rcases AddressMap.mem_insert_iff.mp right with rfl | ⟨right, -⟩
      · exact absurd overlap.symm (clear first left)
      · exact apart.eq_of_overlap first left second right overlap

theorem endingAt?_eq_some_iff (apart : Apart heads) {start : Address} :
    heads.endingAt? address = some start ↔
      ∃ length, (start, length) ∈ heads.entries ∧ start.toNat + length = address.toNat := by
  unfold endingAt?
  simp only [Option.map_eq_some_iff, Option.filter_eq_some_iff, decide_eq_true_eq]
  constructor
  · rintro ⟨⟨start, length⟩, ⟨found, ends⟩, rfl⟩
    obtain ⟨member, below, -⟩ := AddressMap.below?_eq_some_iff.mp found
    have short : length < UInt32.size := (apart.proper _ member).short
    have below : start.toNat < address.toNat := UInt32.lt_iff_toNat_lt.mp below
    have bound := start.toNat_lt_size
    have wrapped : (start.toNat + length) % UInt32.size = address.toNat := by
      rw [← ends, UInt32.toNat_add, UInt32.toNat_ofNat_of_lt' short]
    -- An end that wrapped around would lie below the start.
    have size : UInt32.size = 4294967296 := rfl
    rw [size] at short bound wrapped
    refine ⟨length, member, ?_⟩
    dsimp only
    omega
  · rintro ⟨length, member, ends⟩
    have proper := apart.proper _ member
    have before : start.toNat < address.toNat := by
      have pos : 0 < length := proper.pos
      omega
    refine ⟨(start, length), ⟨apart.below?_eq_some member before (Nat.le_of_eq ends.symm), ?_⟩, rfl⟩
    apply UInt32.toNat_inj.mp
    rw [UInt32.toNat_add, UInt32.toNat_ofNat_of_lt' proper.short, ends]
    exact Nat.mod_eq_of_lt address.toNat_lt_size

theorem covering?_eq_some_iff (apart : Apart heads)
    (ends : ∀ head ∈ heads.entries, head.1.toNat + head.2 < UInt32.size) :
    heads.covering? address = some head ↔ head ∈ heads.entries ∧
      head.1.toNat ≤ address.toNat ∧ address.toNat < head.1.toNat + head.2 := by
  have stop_gt {head : Address × Nat} (member : head ∈ heads.entries) :
      stop head > address ↔ address.toNat < head.1.toNat + head.2 := by
    have bound := ends head member
    rw [gt_iff_lt, stop, UInt32.lt_iff_toNat_lt, Address.toNat_saturatingAdd]
    omega
  unfold covering?
  rw [Option.filter_eq_some_iff, decide_eq_true_eq, AddressMap.atMost?_eq_some_iff,
    UInt32.le_iff_toNat_le]
  constructor
  · rintro ⟨⟨member, starts, -⟩, reaches⟩
    exact ⟨member, starts, (stop_gt member).mp reaches⟩
  · rintro ⟨member, starts, reaches⟩
    refine ⟨⟨member, starts, fun other known before => ?_⟩, (stop_gt member).mpr reaches⟩
    rw [UInt32.le_iff_toNat_le] at before ⊢
    by_contra nearer
    have pos := (apart.proper other known).pos
    have overlap : Overlap head other := ⟨by omega, by omega⟩
    rw [apart.eq_of_overlap head member other known overlap] at nearer
    omega

end Apart

theorem mark?_of_get? {known : Nat} (found : heads.get? address = some known) :
    heads.mark? address length = if known = length then some heads else none := by
  unfold mark?
  rw [found]

/-- What marking can do: it finds the instruction there, or adds it. -/
theorem mark?_eq_some {marked : Heads} (accepted : heads.mark? address length = some marked) :
    marked = heads ∧ (address, length) ∈ heads.entries ∨
      marked = heads.insert address length ∧ heads.contains address = false ∧
        heads.overlaps address length = false := by
  cases found : heads.get? address with
  | some known =>
    rw [mark?_of_get? found] at accepted
    split at accepted
    · next same =>
      subst same
      exact .inl ⟨(Option.some.inj accepted).symm, AddressMap.get?_eq_some_iff.mp found⟩
    · cases accepted
  | none =>
    have unknown : heads.contains address = false := by simp [AddressMap.contains, found]
    rw [mark?_of_not_contains unknown] at accepted
    split at accepted
    · cases accepted
    · next free => exact .inr ⟨(Option.some.inj accepted).symm, unknown, Bool.eq_false_iff.mpr free⟩

namespace Apart

theorem mark?_isSome_iff (apart : Apart heads) (proper : Proper (address, length)) :
    (heads.mark? address length).isSome = true ↔ (address, length) ∈ heads.entries ∨
      ∀ head ∈ heads.entries, ¬ Overlap (address, length) head := by
  have free_iff : heads.overlaps address length = false ↔
      ∀ head ∈ heads.entries, ¬ Overlap (address, length) head := by
    rw [Bool.eq_false_iff, ne_eq, apart.overlaps_iff proper]
    simp only [not_exists, not_and]
  cases found : heads.get? address with
  | some known =>
    have member := AddressMap.get?_eq_some_iff.mp found
    have pos : 0 < known := (apart.proper _ member).pos
    -- The instruction there starts where the new one does.
    have overlap : Overlap (address, length) (address, known) :=
      ⟨by dsimp only; omega, by have := proper.pos; dsimp only at this ⊢; omega⟩
    rw [mark?_of_get? found]
    constructor
    · intro accepted
      split at accepted
      · next same => exact .inl (same ▸ member)
      · cases accepted
    · rintro (same | clear)
      · rw [AddressMap.get?_eq_some_iff.mpr same] at found
        simp [Option.some.inj found]
      · exact absurd overlap (clear _ member)
  | none =>
    have unknown : heads.contains address = false := by simp [AddressMap.contains, found]
    rw [mark?_of_not_contains unknown]
    constructor
    · intro accepted
      split at accepted
      · cases accepted
      · next free => exact .inr (free_iff.mp (Bool.eq_false_iff.mpr free))
    · rintro (known | clear)
      · rw [AddressMap.get?_eq_some_iff.mpr known] at found
        cases found
      · simp [free_iff.mpr clear]

theorem mark? (apart : Apart heads) (proper : Proper (address, length)) {marked : Heads}
    (accepted : heads.mark? address length = some marked) :
    Apart marked ∧ ∀ head, head ∈ marked.entries ↔ head = (address, length) ∨ head ∈ heads.entries := by
  rcases mark?_eq_some accepted with ⟨rfl, known⟩ | ⟨rfl, unknown, free⟩
  · exact ⟨apart, fun head => ⟨.inr, fun either => either.elim (fun same => same ▸ known) id⟩⟩
  · refine ⟨apart.insert proper free, fun head => ?_⟩
    rw [AddressMap.mem_insert_iff]
    exact or_congr_right ⟨And.left, fun member => ⟨member, AddressMap.ne_of_not_contains unknown member⟩⟩

end Apart

def Fits (head : Address × Nat) : Prop := 0 < head.2 ∧ head.1.toNat + head.2 < UInt32.size

instance (head : Address × Nat) : Decidable (Fits head) := inferInstanceAs (Decidable (_ ∧ _))

theorem Fits.proper (fits : Fits head) : Proper head := by
  obtain ⟨pos, ends⟩ := fits
  exact ⟨pos, by omega, by omega⟩

end Heads

namespace Database

/-- Mark one instruction after the other. One that is refused changes nothing. -/
def markAll (database : Database) (calls : List (Address × Nat)) : Database :=
  calls.foldl (fun database call => (database.markHead? call.1 call.2).getD database) database

theorem markHead?_isSome (database : Database) (address : Address) (length : Nat) :
    (database.markHead? address length).isSome = (database.heads.mark? address length).isSome := by
  simp [markHead?]

theorem markHead?_heads {database marked : Database} {address : Address} {length : Nat}
    (accepted : database.markHead? address length = some marked) :
    database.heads.mark? address length = some marked.heads ∧
      marked = { database with heads := marked.heads } := by
  obtain ⟨heads, found, rfl⟩ := Option.map_eq_some_iff.mp accepted
  exact ⟨found, rfl⟩

theorem memory_markAll (database : Database) (calls : List (Address × Nat)) :
    (database.markAll calls).memory = database.memory := by
  refine foldl_keeps memory (fun database call => ?_) calls database
  cases marking : database.markHead? call.1 call.2 with
  | none => rfl
  | some marked =>
    rw [Option.getD_some, (markHead?_heads marking).2]

theorem markAll_grows (database : Database) {calls : List (Address × Nat)}
    (apart : database.heads.Apart) (proper : ∀ call ∈ calls, Heads.Proper call) :
    (database.markAll calls).heads.Apart ∧
      database.heads.entries ⊆ (database.markAll calls).heads.entries ∧
      ∀ head ∈ (database.markAll calls).heads.entries,
        head ∈ database.heads.entries ∨ head ∈ calls := by
  induction calls generalizing database with
  | nil => exact ⟨apart, fun _ => id, fun _ => .inl⟩
  | cons call calls ih =>
    have later : ∀ other ∈ calls, Heads.Proper other := fun other member => proper other (.tail call member)
    have split : database.markAll (call :: calls) =
        ((database.markHead? call.1 call.2).getD database).markAll calls := rfl
    rw [split]
    cases marking : database.markHead? call.1 call.2 with
    | none =>
      obtain ⟨kept, more, members⟩ := ih database apart later
      exact ⟨kept, more, fun head member => (members head member).imp_right (.tail call)⟩
    | some marked =>
      obtain ⟨apart, added⟩ := apart.mark? (proper call (.head calls)) (markHead?_heads marking).1
      obtain ⟨kept, more, members⟩ := ih marked apart later
      refine ⟨kept, fun head known => more ((added head).mpr (.inr known)), fun head member => ?_⟩
      rcases members head member with known | new
      · rcases (added head).mp known with rfl | old
        · exact .inr (.head calls)
        · exact .inl old
      · exact .inr (.tail call new)

theorem apart_markAll (database : Database) {calls : List (Address × Nat)}
    (apart : database.heads.Apart) (inside : ∀ head ∈ database.heads.entries, Heads.Fits head)
    (fit : ∀ call ∈ calls, Heads.Fits call) :
    (database.markAll calls).heads.Apart ∧
      ∀ head ∈ (database.markAll calls).heads.entries, Heads.Fits head := by
  obtain ⟨kept, -, members⟩ := database.markAll_grows apart fun call member => (fit call member).proper
  refine ⟨kept, fun head member => ?_⟩
  rcases members head member with known | new
  · exact inside head known
  · exact fit head new

end Database

/-- Whatever was marked, the heads are apart, marking refuses exactly what
would overlap, and the queries find exactly the head asked for. -/
theorem markAll_heads_exact (memory : Memory) (calls : List (Address × Nat))
    (fit : ∀ call ∈ calls, Heads.Fits call) :
    let database := (Database.ofMemory memory).markAll calls
    (∀ first ∈ database.heads.entries, ∀ second ∈ database.heads.entries,
      Heads.Overlap first second → first = second) ∧
    (∀ call, Heads.Fits call →
      ((database.markHead? call.1 call.2).isSome = true ↔ call ∈ database.heads.entries ∨
        ∀ head ∈ database.heads.entries, ¬ Heads.Overlap call head) ∧
      (∀ marked, database.markHead? call.1 call.2 = some marked →
        marked = { database with heads := marked.heads } ∧
        ∀ head, head ∈ marked.heads.entries ↔ head = call ∨ head ∈ database.heads.entries) ∧
      (database.markHead? call.1 call.2 = none →
        (Database.ofMemory memory).markAll (calls ++ [call]) = database)) ∧
    (∀ address head, database.heads.covering? address = some head ↔
      head ∈ database.heads.entries ∧
        head.1.toNat ≤ address.toNat ∧ address.toNat < head.1.toNat + head.2) ∧
    (∀ address start, database.view.previous? address = some start ↔
      ∃ length, (start, length) ∈ database.heads.entries ∧
        start.toNat + length = address.toNat) := by
  intro database
  obtain ⟨apart, inside⟩ := Database.apart_markAll (.ofMemory memory) Heads.apart_empty
    (fun _ member => nomatch member) fit
  refine ⟨apart.eq_of_overlap, fun call fits => ⟨?_, fun marked accepted => ?_, fun refused => ?_⟩,
    fun address head => ?_, fun address start => apart.endingAt?_eq_some_iff⟩
  · rw [Database.markHead?_isSome]
    exact apart.mark?_isSome_iff fits.proper
  · obtain ⟨accepted, same⟩ := Database.markHead?_heads accepted
    exact ⟨same, (apart.mark? fits.proper accepted).2⟩
  · have last : (Database.ofMemory memory).markAll (calls ++ [call]) =
        (database.markHead? call.1 call.2).getD database := by
      simp [Database.markAll, database]
    rw [last, refused]
    rfl
  · exact apart.covering?_eq_some_iff fun head member => (inside head member).2

/-- The second instruction overlaps the first and is refused. -/
theorem markAll_heads_exact_three :
    let calls : List (Address × Nat) := [(0x100, 4), (0x102, 2), (0x104, 2)]
    let database := (Database.ofMemory .empty).markAll calls
    (∀ call ∈ calls, Heads.Fits call) ∧
      ∀ address start, database.view.previous? address = some start ↔
        ∃ length, (start, length) ∈ database.heads.entries ∧ start.toNat + length = address.toNat :=
  ⟨by decide, (markAll_heads_exact .empty _ (by decide)).2.2.2⟩

end H8
