import H8.Proofs.Effects
import H8.Proofs.Listing.Coverage
import H8.Proofs.Symbols.Bijection
import Mathlib.Data.Nat.Find
import Mathlib.Logic.Function.Iterate

/-! Scans and listings come to an end.

Each step of a scan takes one address off the pending ones. Only marking an
instruction adds more, at most as many as the longest table has, and no address
is looked at twice. So the steps are paid for by the entries and the marked
instructions. Each step of a listing takes room, since a decoded instruction and
a recognized table do, in whatever mode they were found.
-/

set_option autoImplicit false

namespace H8

open Assembly

/-! ### Steps of a scan -/

theorem Instruction.length_edges_le (instruction : Instruction) : instruction.edges.length ≤ 2 := by
  unfold edges
  split <;> cases instruction.target? <;> simp

/-- Control goes on and to one target at most, or to the elements of a table. -/
theorem Instruction.length_successors_le (instruction : Instruction) (view : View) (mode : Mode) :
    (Marking.mk instruction (instruction.effects view mode)).successors.length ≤ maxSwitchCases := by
  have known : (instruction.edges.filterMap Edge.target?).length ≤ 2 :=
    (List.length_filterMap_le _ _).trans instruction.length_edges_le
  unfold Marking.successors Effects.tableTargets
  cases found : instruction.switch? view mode with
  | none =>
    have on : (if (instruction.effects view mode).flow.fallsThrough then [instruction.next]
        else []).length ≤ 1 := by split <;> simp
    simp only [effects, found, List.length_append, Option.map_none, Option.getD_none, List.length_nil]
      at on ⊢
    simp only [maxSwitchCases]
    omega
  | some table =>
    -- A jump through a table has no other way to go.
    obtain ⟨-, read⟩ := read_of_findSwitch? (findSwitch?_of_switch? found)
    have single : instruction.edges = [.jump none] := edges_of_switch? found
    have stays : (instruction.effects view mode).flow.fallsThrough = false := by
      simp [effects, single, Effects.flow, Flow.fallsThrough]
    have unknown : (instruction.effects view mode).edges.filterMap Edge.target? = [] := by
      rw [effects, single]
      rfl
    rw [stays, unknown]
    simpa [effects, found, read.count] using read.few

theorem Trace.length_pending_record (trace : Trace) (instruction : Instruction) (effects : Effects) :
    (trace.record instruction effects).pending.length =
      (Marking.mk instruction effects).successors.length + trace.pending.length := by
  unfold record Marking.successors
  dsimp only
  rw [Effects.followed_references]
  simp only [List.length_append, List.length_reverse]
  omega

section
variable {mode : Mode} {trace next : Trace} {now : List Marking}

/-- A step takes an address away, and pays for the ones it adds by a marking. -/
theorem Step.pays (step : Step mode trace now next) :
    next.pending.length + 1 ≤ trace.pending.length + maxSwitchCases * now.length ∧
      next.instructions = trace.instructions + now.length ∧
      trace.visited.addresses.length + now.length ≤ next.visited.addresses.length := by
  cases step with
  | seen waiting _ =>
    rw [waiting]
    exact ⟨Nat.le_refl _, rfl, Nat.le_refl _⟩
  | passed fresh waiting _ =>
    rw [waiting]
    exact ⟨Nat.le_refl _, rfl, Nat.le_succ _⟩
  | @marked address rest instruction database fresh waiting _ _ _ =>
    rw [Trace.length_pending_record, waiting]
    have few := instruction.length_successors_le database.view mode
    refine ⟨?_, rfl, Nat.le_refl _⟩
    simp only [Trace.take, List.length_cons, List.length_nil]
    omega

theorem Step.visited_subset (step : Step mode trace now next) :
    trace.visited.addresses ⊆ next.visited.addresses := by
  cases step with
  | seen _ _ => exact List.Subset.refl _
  | passed _ _ _ | marked _ _ _ _ _ => exact List.subset_cons_self _ _

end

namespace Trace
variable {mode : Mode} {trace : Trace} {address : Address}

theorem runFor_of_empty (empty : trace.pending = []) (steps : Nat) : trace.runFor mode steps = trace := by
  cases steps with
  | zero => rfl
  | succ steps => rw [runFor, empty]

theorem runFor_of_seen {rest : List Address} (waiting : trace.pending = address :: rest)
    (seen : address ∈ trace.visited.addresses) (steps : Nat) :
    trace.runFor mode (steps + 1) = { trace with pending := rest }.runFor mode steps := by
  rw [runFor, waiting]
  exact dif_pos seen

theorem runFor_of_fresh {rest : List Address} (waiting : trace.pending = address :: rest)
    (fresh : address ∉ trace.visited.addresses) (steps : Nat) :
    trace.runFor mode (steps + 1) =
      ((trace.take address rest fresh).visit mode address).runFor mode steps := by
  rw [runFor, waiting]
  exact dif_neg fresh

theorem runFor_succ (mode : Mode) (trace : Trace) (steps : Nat) :
    trace.runFor mode (steps + 1) = (trace.runFor mode steps).runFor mode 1 := by
  -- The loop takes its first step first, so the trace changes along the induction.
  induction steps generalizing trace with
  | zero => rfl
  | succ steps ih =>
    cases waiting : trace.pending with
    | nil => rw [runFor_of_empty waiting, runFor_of_empty waiting, runFor_of_empty waiting]
    | cons address rest =>
      by_cases seen : address ∈ trace.visited.addresses
      · rw [runFor_of_seen waiting seen, ih, runFor_of_seen waiting seen]
      · rw [runFor_of_fresh waiting seen, ih, runFor_of_fresh waiting seen]

theorem exists_step_runFor (mode : Mode) (busy : trace.pending ≠ []) :
    ∃ now, Step mode trace now (trace.runFor mode 1) := by
  obtain ⟨address, rest, waiting⟩ := List.exists_cons_of_ne_nil busy
  by_cases seen : address ∈ trace.visited.addresses
  · rw [runFor_of_seen waiting seen]
    exact ⟨[], .seen waiting seen⟩
  · rw [runFor_of_fresh waiting seen]
    exact exists_step_visit waiting seen

/-- The entries and the marked instructions pay for all steps. -/
theorem steps_le_budget (begun : Trace) (unused : begun.instructions = 0) (steps : Nat)
    (busy : ∀ earlier < steps, (begun.runFor mode earlier).pending ≠ []) :
    steps + (begun.runFor mode steps).pending.length ≤
        begun.pending.length + maxSwitchCases * (begun.runFor mode steps).instructions ∧
      (begun.runFor mode steps).instructions ≤
        (begun.runFor mode steps).visited.addresses.length := by
  induction steps with
  | zero => simp [runFor, unused]
  | succ steps ih =>
    obtain ⟨paid, distinct⟩ := ih fun earlier before => busy earlier (Nat.lt_succ_of_lt before)
    obtain ⟨now, step⟩ := exists_step_runFor mode (busy steps (Nat.lt_succ_self steps))
    rw [← runFor_succ] at step
    obtain ⟨taken, marked, visited⟩ := step.pays
    -- One step more has one address less to pay for, and what its marking allows.
    refine ⟨?_, by omega⟩
    rw [marked, Nat.mul_add]
    omega

/-- A scan cannot go on for ever, for want of addresses to mark. -/
theorem exists_pending_eq_nil (mode : Mode) (database : Database) (entries : List Address) :
    ∃ steps, ((start database entries).runFor mode steps).pending = [] := by
  by_contra always
  have busy : ∀ steps, ((start database entries).runFor mode steps).pending ≠ [] := not_exists.mp always
  -- With every address marked, this many steps would be one too many.
  obtain ⟨paid, distinct⟩ := steps_le_budget (start database entries) rfl
    (entries.length + maxSwitchCases * UInt32.size + 1) fun earlier _ => busy earlier
  have bound := Nat.mul_le_mul_left maxSwitchCases (distinct.trans (Visited.length_le _))
  have entered : (start database entries).pending = entries := rfl
  rw [entered] at paid
  omega

/-- The address that the next step looks at: the next one, unless it has been
looked at before. -/
def current? (trace : Trace) : Option Address :=
  trace.pending.head?.filter (· ∉ trace.visited.addresses)

theorem current?_eq_some_iff : trace.current? = some address ↔
    (∃ rest, trace.pending = address :: rest) ∧ address ∉ trace.visited.addresses := by
  simp [current?, Option.filter_eq_some_iff, List.head?_eq_some_iff]

/-- A step that looks at no address does nothing but drop one. -/
theorem runFor_of_current? (none : trace.current? = none) :
    trace.runFor mode 1 = { trace with pending := trace.pending.tail } := by
  cases waiting : trace.pending with
  | nil =>
    rw [runFor_of_empty waiting, List.tail_nil, ← waiting]
  | cons address rest =>
    by_cases seen : address ∈ trace.visited.addresses
    · rw [runFor_of_seen waiting seen]
      rfl
    · rw [current?_eq_some_iff.mpr ⟨⟨rest, waiting⟩, seen⟩] at none
      cases none

theorem visited_runFor_succ (mode : Mode) (trace : Trace) (steps : Nat) :
    (trace.runFor mode steps).visited.addresses ⊆
      (trace.runFor mode (steps + 1)).visited.addresses := by
  rw [runFor_succ]
  by_cases busy : (trace.runFor mode steps).pending = []
  · rw [runFor_of_empty busy]
    exact List.Subset.refl _
  · obtain ⟨now, step⟩ := exists_step_runFor mode busy
    exact step.visited_subset

theorem visited_runFor_of_le (mode : Mode) (trace : Trace) {first second : Nat} (early : first ≤ second) :
    (trace.runFor mode first).visited.addresses ⊆ (trace.runFor mode second).visited.addresses := by
  induction early with
  | refl => exact List.Subset.refl _
  | step _ ih => exact List.Subset.trans ih (visited_runFor_succ mode trace _)

theorem mem_visited_of_current? (now : trace.current? = some address) :
    address ∈ (trace.runFor mode 1).visited.addresses := by
  obtain ⟨⟨rest, waiting⟩, fresh⟩ := current?_eq_some_iff.mp now
  rw [runFor_of_fresh waiting fresh, runFor, visited_visit]
  exact .head _

theorem not_current?_of_lt {first second : Nat} (early : first < second)
    (now : (trace.runFor mode first).current? = some address) :
    (trace.runFor mode second).current? ≠ some address := by
  intro again
  have seen : address ∈ (trace.runFor mode (first + 1)).visited.addresses := by
    rw [runFor_succ]
    exact mem_visited_of_current? now
  exact (current?_eq_some_iff.mp again).2 (visited_runFor_of_le mode trace early seen)

/-- A loop that ends with its last pending address, and looks at none twice. -/
structure EndsAfter (mode : Mode) (begun : Trace) (steps : Nat) : Prop where
  busy : ∀ earlier < steps, (begun.runFor mode earlier).pending ≠ []
  done : (begun.runFor mode steps).pending = []
  once : ∀ (first second : Nat) (address : Address),
    (begun.runFor mode first).current? = some address →
    (begun.runFor mode second).current? = some address → first = second
  /-- In all other steps nothing changes but what is pending. -/
  idle : ∀ step, (begun.runFor mode step).current? = none →
    begun.runFor mode (step + 1) =
      { begun.runFor mode step with pending := (begun.runFor mode step).pending.tail }

theorem endsAfter_of_least {begun : Trace} {steps : Nat}
    (busy : ∀ earlier < steps, (begun.runFor mode earlier).pending ≠ [])
    (done : (begun.runFor mode steps).pending = []) : begun.EndsAfter mode steps := by
  refine ⟨busy, done, fun first second address now again => ?_, fun step none => ?_⟩
  · rcases Nat.lt_trichotomy first second with before | same | after
    · exact absurd again (not_current?_of_lt before now)
    · exact same
    · exact absurd now (not_current?_of_lt after again)
  · rw [runFor_succ]
    exact runFor_of_current? none

end Trace

theorem Database.scan_endsAfter (database : Database) (entries : List Address) (mode : Mode) :
    let begun := Trace.start database entries
    let report := (database.scan entries mode).2
    ∃ steps ≤ entries.length + maxSwitchCases * report.instructions,
      begun.EndsAfter mode steps ∧ report.instructions ≤ UInt32.size ∧
        database.scan entries mode = (begun.runFor mode steps).conclude mode := by
  intro begun report
  let ends := Trace.exists_pending_eq_nil mode database entries
  have busy : ∀ earlier < Nat.find ends, (begun.runFor mode earlier).pending ≠ [] :=
    fun earlier before => Nat.find_min ends before
  have done : (begun.runFor mode (Nat.find ends)).pending = [] := Nat.find_spec ends
  have same := Database.scan_eq_runFor (Nat.find ends) done
  have marked : report.instructions = (begun.runFor mode (Nat.find ends)).instructions := by
    simp only [report, same]
    rfl
  obtain ⟨paid, distinct⟩ := Trace.steps_le_budget begun rfl _ busy
  rw [← marked] at paid distinct
  exact ⟨Nat.find ends, (Nat.le_add_right _ _).trans paid, Trace.endsAfter_of_least busy done,
    distinct.trans (Visited.length_le _), same⟩

/-! ### Steps of a listing -/

def Database.TablesTakeRoom (database : Database) : Prop :=
  ∀ entry ∈ database.switches.entries, 0 < entry.2.count * entry.2.elementSize

namespace Database.TablesTakeRoom
variable {database : Database} {mode : Mode}

theorem ofMemory (memory : Memory) : (Database.ofMemory memory).TablesTakeRoom := by
  intro entry member
  cases member

theorem step {trace next : Trace} {now : List Marking} (room : trace.database.TablesTakeRoom)
    (step : Step mode trace now next) : next.database.TablesTakeRoom := by
  cases step with
  | seen _ _ | passed _ _ _ => exact room
  | @marked address rest instruction database fresh _ unknown decodes accepted =>
    intro entry member
    have same : database.switches = trace.database.switches := by
      rw [Database.markHead?_eq_some unknown accepted]
    rw [Trace.switches_record] at member
    split at member
    · next table made =>
      rcases AddressMap.mem_insert_iff.mp member with rfl | ⟨known, -⟩
      · obtain ⟨-, read⟩ := read_of_findSwitch? (Instruction.findSwitch?_of_switch? made)
        have wide : 0 < table.elementSize := by
          have := read.size
          omega
        exact Nat.mul_pos read.pos wide
      · exact room entry (same ▸ known)
    · exact room entry (same ▸ member)

theorem scan (room : database.TablesTakeRoom) (entries : List Address) (mode : Mode) :
    (database.scan entries mode).1.TablesTakeRoom := by
  obtain ⟨⟨history, runs⟩, -⟩ := exists_runs_run mode (.start database entries)
  have begun : (Trace.start database entries).database.TablesTakeRoom := by
    unfold TablesTakeRoom
    rw [Database.switches_start]
    exact room
  have traced := runs.keeps (fun _ trace => trace.database.TablesTakeRoom)
    (fun room step => room.step step) [] begun
  unfold TablesTakeRoom
  rw [Database.switches_scan]
  exact traced

theorem scanEach (room : database.TablesTakeRoom) (scans : List (List Address × Mode)) :
    (database.scanEach scans).TablesTakeRoom := by
  induction scans generalizing database with
  | nil => exact room
  | cons scan scans ih => exact ih (room.scan scan.1 scan.2)

theorem lt_of_item (room : database.TablesTakeRoom) {context : ListingContext} {stop address next : Address}
    {directive : Directive} (inside : address < stop)
    (found : database.item context stop address = .block directive next) : address < next := by
  have onward (size : Nat) (long : 0 < size) : address < Address.saturatingAdd address size :=
    (Address.lt_saturatingAdd_iff (Address.low_of_lt inside) _ _).mpr (by omega)
  unfold item at found
  split at found
  · next outside =>
    obtain ⟨rfl, rfl⟩ := Item.block.inj found
    exact UInt32.lt_iff_toNat_lt.mpr (nextMapped_spec (by simpa using outside) inside).1
  · split at found
    · next switch listed =>
      obtain ⟨rfl, rfl⟩ := Item.block.inj found
      unfold listedSwitch? at listed
      split at listed
      · cases listed
      · exact onward _ (room _ (AddressMap.get?_eq_some_iff.mp listed))
    · split at found
      · next instruction known =>
        obtain ⟨rfl, rfl⟩ := Item.block.inj found
        unfold knownInstruction? at known
        split at known
        · -- It decodes in the mode of the listing, whatever mode it was marked in.
          cases decodes : database.view.decodeAt address context.mode with
          | error _ => simp [decodes, Except.toOption] at known
          | ok decoded =>
            obtain rfl : decoded = instruction := by simpa [decodes, Except.toOption] using known
            exact onward _ (length_pos_of_decode (Memory.decode_of_decodeAt decodes))
        · cases known
      · cases found

end Database.TablesTakeRoom

namespace Listing
variable {database : Database} {context : ListingContext} {stop : Address}

theorem lt_address_step (room : database.TablesTakeRoom) {listing : Listing}
    (inside : listing.address < stop) :
    listing.address < (listing.step database context stop).address := by
  cases found : database.item context stop listing.address with
  | block directive next =>
    rw [(step_of_block found).2.1]
    exact room.lt_of_item inside found
  | bytes bytes =>
    obtain ⟨byte, rfl, -⟩ := Database.item_eq_bytes found
    rw [step_of_bytes found, (shown_take _ byte).2.1, address_label, UInt32.lt_iff_toNat_lt,
      Address.toNat_succ inside]
    exact Nat.lt_succ_self _

/-- A loop whose every step goes onward, until the end is reached. -/
structure EndsAfter (database : Database) (context : ListingContext) (stop : Address) (begun : Listing)
    (count : Nat) : Prop where
  onward : ∀ earlier < count,
    ((step database context stop)^[earlier] begun).address < stop ∧
      ((step database context stop)^[earlier] begun).address <
        ((step database context stop)^[earlier + 1] begun).address
  done : ¬ ((step database context stop)^[count] begun).address < stop

theorem complete_endsAfter (room : database.TablesTakeRoom) (context : ListingContext) (stop : Address)
    (listing : Listing) :
    ∃ count ≤ stop.toNat - listing.address.toNat, EndsAfter database context stop listing count ∧
      complete database context stop listing =
        ((step database context stop)^[count] listing).flush := by
  induction listing using complete.induct database context stop with
  | case1 listing inside next onward ih =>
    obtain ⟨count, few, ends, same⟩ := ih
    rw [complete, dif_pos inside, dif_pos onward]
    have further := UInt32.lt_iff_toNat_lt.mp onward
    have room := UInt32.lt_iff_toNat_lt.mp inside
    refine ⟨count + 1, by omega, ⟨fun earlier before => ?_, ends.done⟩, same⟩
    cases earlier with
    | zero => exact ⟨inside, onward⟩
    | succ earlier => exact ends.onward earlier (Nat.lt_of_succ_lt_succ before)
  | case2 listing inside next stuck =>
    -- The way out for an item without room is never taken.
    exact absurd (lt_address_step room inside) stuck
  | case3 listing outside =>
    rw [complete, dif_neg outside]
    exact ⟨0, Nat.zero_le _, ⟨by simp, outside⟩, rfl⟩

end Listing

/-- A scan ends when it has taken all pending addresses. No step looks at an
address that another one has looked at, and the entries and the marked
instructions bound the steps. After any scans, a listing of any range goes onward
with each step until it reaches the end. -/
theorem scans_and_listings_end :
    (∀ (database : Database) (entries : List Address) (mode : Mode),
      let begun := Trace.start database entries
      let report := (database.scan entries mode).2
      ∃ steps ≤ entries.length + maxSwitchCases * report.instructions,
        begun.EndsAfter mode steps ∧ report.instructions ≤ UInt32.size ∧
          database.scan entries mode = (begun.runFor mode steps).conclude mode) ∧
    ∀ (memory : Memory) (scans : List (List Address × Mode)) (context : ListingContext)
      (start stop : Address),
      let database := (Database.ofMemory memory).scanEach scans
      let begun : Listing := ⟨start, ⟨start, []⟩, #[⟨start, .origin start⟩]⟩
      ∃ count ≤ stop.toNat - start.toNat, begun.EndsAfter database context stop count ∧
        (database.list context start stop).directives =
          ((Listing.step database context stop)^[count] begun).flush.rows.toList := by
  refine ⟨Database.scan_endsAfter, fun memory scans context start stop => ?_⟩
  intro database begun
  have room : database.TablesTakeRoom := (Database.TablesTakeRoom.ofMemory memory).scanEach scans
  obtain ⟨count, few, ends, same⟩ := Listing.complete_endsAfter room context stop begun
  exact ⟨count, few, ends, by rw [← same]; rfl⟩

/-- The second step finds that a branch leads to itself. -/
example :
    let begun := Trace.start (.ofMemory (.ofImage #[0x40, 0xFE] 0)) [0]
    let mode : Mode := ⟨.h8300h, .normal⟩
    begun.current? = some 0 ∧ (begun.runFor mode 1).pending = [0] ∧
      (begun.runFor mode 1).current? = none ∧ (begun.runFor mode 2).pending = [] := by
  decide +kernel

end H8
