import H8.Listing
import H8.Proofs.Scan.Consistency

/-! Listings, row by row.

The data that has been read but not yet listed is held back until a run is
full or something else comes. Seen as if it were listed at once, a listing
grows at its end: by a heading and a directive of its own, or by one byte in
the last run of data. That view is enough to say what a listing contains.
-/

set_option autoImplicit false

namespace H8

open Assembly

def Listing.shown (listing : Listing) : List Located := listing.rows.toList ++ listing.run.rows

/-- What one step does to the rows, at an address, and the address after it. -/
inductive Grows (database : Database) (context : ListingContext) (stop : Address) :
    List Located → Address → List Located → Address → Prop
  | block {rows : List Located} {address next : Address} {directive : Directive} :
      database.item context stop address = .block directive next →
      Grows database context stop rows address
        (rows ++ (database.heading address ++ [⟨address, directive⟩])) next
  | start {rows : List Located} {address : Address} {byte : UInt8} :
      database.item context stop address = .bytes [byte] →
      Grows database context stop rows address
        (rows ++ (database.heading address ++ [⟨address, .data [byte]⟩])) (address + 1)
  | more {rows : List Located} {address first : Address} {bytes : List UInt8} {byte : UInt8} :
      database.item context stop address = .bytes [byte] → database.heading address = [] →
      bytes.length < dataRunLength →
      Grows database context stop (rows ++ [⟨first, .data bytes⟩]) address
        (rows ++ [⟨first, .data (bytes ++ [byte])⟩]) (address + 1)

namespace Database
variable {database : Database} {context : ListingContext} {stop address : Address}

/-- Plain data stands where memory is, but neither a table nor an instruction. -/
theorem item_eq_bytes {bytes : List UInt8}
    (found : database.item context stop address = .bytes bytes) :
    ∃ byte, bytes = [byte] ∧ database.memory.readByte? address = some byte ∧
      database.knownInstruction? context.mode address = none := by
  unfold item at found
  split at found
  · cases found
  · next mapped =>
    split at found
    · cases found
    · split at found
      · cases found
      · next unknown =>
        obtain ⟨byte, read⟩ := Memory.read_one (Bool.not_eq_false _ ▸ Bool.not_eq_true' _ ▸ mapped)
        injection found with same
        rw [read] at same
        exact ⟨byte, same.symm, by rw [Memory.readByte?, read]; rfl, unknown⟩

end Database

namespace Listing
variable {database : Database} {context : ListingContext} {stop : Address} {listing : Listing}

theorem rows_flush (listing : Listing) : listing.flush.rows.toList = listing.shown := by
  simp [shown, flush]

theorem label_of_nil (empty : database.heading listing.address = []) :
    listing.label database = listing := by
  unfold label
  rw [empty]

/-- A heading ends the run of data in front of it. -/
theorem label_of_ne_nil (heading : database.heading listing.address ≠ []) :
    listing.label database =
      ⟨listing.address, ⟨listing.address, []⟩,
        listing.rows ++ listing.run.rows ++ database.heading listing.address⟩ := by
  unfold label
  split
  · next empty => exact absurd empty heading
  · rfl

theorem address_label (database : Database) (listing : Listing) :
    (listing.label database).address = listing.address := by
  unfold label
  split <;> rfl

theorem shown_label (database : Database) (listing : Listing) :
    (listing.label database).shown = listing.shown ++ database.heading listing.address := by
  by_cases heading : database.heading listing.address = []
  · rw [label_of_nil heading, heading, List.append_nil]
  · rw [label_of_ne_nil heading]
    simp [shown, DataRun.rows]

theorem step_of_block {directive : Directive} {next : Address}
    (found : database.item context stop listing.address = .block directive next) :
    (listing.step database context stop).shown =
        listing.shown ++ (database.heading listing.address ++ [⟨listing.address, directive⟩]) ∧
      (listing.step database context stop).address = next ∧
      (listing.step database context stop).run.bytes = [] := by
  have stepped : listing.step database context stop =
      ⟨next, ⟨listing.address, []⟩,
        (listing.label database).flush.rows.push ⟨listing.address, directive⟩⟩ := by
    unfold step
    simp only [address_label, found]
    simp [flush, address_label]
  rw [stepped]
  refine ⟨?_, rfl, rfl⟩
  rw [← List.append_assoc, ← shown_label, ← rows_flush (listing.label database)]
  simp [shown, DataRun.rows]

def take (listing : Listing) (byte : UInt8) : Listing :=
  let run := listing.run.extend listing.address [byte]
  let listing := { listing with run, address := listing.address + 1 }
  if run.isFull then listing.flush else listing

theorem step_of_bytes {byte : UInt8}
    (found : database.item context stop listing.address = .bytes [byte]) :
    listing.step database context stop = (listing.label database).take byte := by
  unfold step take
  simp only [address_label, found]

theorem shown_take (listing : Listing) (byte : UInt8) :
    (listing.take byte).shown =
        listing.rows.toList ++ (listing.run.extend listing.address [byte]).rows ∧
      (listing.take byte).address = listing.address + 1 ∧
      (listing.take byte).run.bytes.length < dataRunLength := by
  unfold take
  dsimp only
  split
  · exact ⟨by simp [shown, flush, DataRun.rows], rfl, by simp [flush, dataRunLength]⟩
  · next room =>
    refine ⟨rfl, rfl, ?_⟩
    simpa [DataRun.isFull] using room

theorem grows_step (database : Database) (context : ListingContext) (stop : Address)
    (room : listing.run.bytes.length < dataRunLength) :
    Grows database context stop listing.shown listing.address
        (listing.step database context stop).shown (listing.step database context stop).address ∧
      (listing.step database context stop).run.bytes.length < dataRunLength := by
  cases found : database.item context stop listing.address with
  | block directive next =>
    obtain ⟨shown, address, run⟩ := step_of_block found
    rw [shown, address, run]
    exact ⟨.block found, by decide⟩
  | bytes bytes =>
    obtain ⟨byte, rfl, -⟩ := Database.item_eq_bytes found
    obtain ⟨shown, address, run⟩ := shown_take (listing.label database) byte
    rw [step_of_bytes found, shown, address, address_label]
    refine ⟨?_, run⟩
    by_cases heading : database.heading listing.address = []
    · rw [label_of_nil heading]
      by_cases fresh : listing.run.bytes = []
      · -- No run is at hand.
        have rows : listing.rows.toList ++ (listing.run.extend listing.address [byte]).rows =
            listing.shown ++ (database.heading listing.address ++ [⟨listing.address, .data [byte]⟩]) := by
          simp [Listing.shown, DataRun.rows, DataRun.extend, heading, fresh]
        rw [rows]
        exact .start found
      · have before : listing.shown =
            listing.rows.toList ++ [⟨listing.run.start, .data listing.run.bytes⟩] := by
          simp [Listing.shown, DataRun.rows, fresh]
        have after : (listing.run.extend listing.address [byte]).rows =
            [⟨listing.run.start, .data (listing.run.bytes ++ [byte])⟩] := by
          simp [DataRun.rows, DataRun.extend, fresh]
        rw [before, after]
        exact .more found heading room
    · -- The heading has ended the run.
      have rows : (listing.label database).rows.toList ++
          ((listing.label database).run.extend listing.address [byte]).rows =
          listing.shown ++ (database.heading listing.address ++ [⟨listing.address, .data [byte]⟩]) := by
        rw [label_of_ne_nil heading]
        simp [Listing.shown, DataRun.rows, DataRun.extend]
      rw [rows]
      exact .start found

/-- What every step keeps, a listing keeps, provided that steps go onward. -/
theorem complete_keeps (invariant : List Located → Address → Prop)
    (kept : ∀ {rows rows' : List Located} {address next : Address}, address < stop →
      invariant rows address → Grows database context stop rows address rows' next →
      invariant rows' next ∧ address < next)
    (room : listing.run.bytes.length < dataRunLength) (holds : invariant listing.shown listing.address) :
    ∃ last, ¬ last < stop ∧
      invariant (complete database context stop listing).rows.toList last := by
  induction listing using complete.induct database context stop with
  | case1 listing inside next onward ih =>
    obtain ⟨grows, room'⟩ := grows_step database context stop room
    rw [complete, dif_pos inside, dif_pos onward]
    exact ih room' (kept inside holds grows).1
  | case2 listing inside next stuck =>
    obtain ⟨grows, -⟩ := grows_step database context stop room
    exact absurd (kept inside holds grows).2 stuck
  | case3 listing outside =>
    rw [complete, dif_neg outside, rows_flush]
    exact ⟨listing.address, outside, holds⟩

end Listing

end H8
