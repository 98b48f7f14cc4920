import H8.Database
import H8.Proofs.Symbols
import Mathlib.Data.List.Induction

/-! Naming locations one after the other.

A naming gives a location a label of its own or makes sure that it has one. It
records one symbol and forgets the one that it takes the place of. Labels and
addresses keep leading to each other as long as no naming steals a name: a label
that moves away leaves another one behind at an address that has no name any
more, and a generated label may be in use for another address.
-/

set_option autoImplicit false

namespace H8

open Assembly (Label)

namespace Symbols
variable {symbols next : Symbols} {label : Label} {address : Address} {number : Nat} {symbol : Symbol}

theorem address?_of_lookup (found : symbols.byLabel.lookup label = some number)
    (there : symbols.all[number]? = some symbol) : symbols.address? label = some symbol.address := by
  simp [address?, labelSymbol?, found, there]

theorem label?_of_get? (found : symbols.byAddress.get? address = some number)
    (there : symbols.all[number]? = some symbol) : symbols.label? address = some symbol.label := by
  simp [label?, addressSymbol?, found, there]

theorem lookup_dropLabel_self (label : Label) (byLabel : List (Label × Nat)) :
    (dropLabel label byLabel).lookup label = none := by
  rw [List.lookup_eq_none_iff]
  intro entry member
  have kept : entry.1 ≠ label := by simpa using (List.mem_filter.mp member).2
  simpa using kept.symm

/-- What an index leads to has the label or the address it was found under. -/
structure Linked (symbols : Symbols) : Prop where
  byLabel : ∀ label number, symbols.byLabel.lookup label = some number →
    ∃ address, symbols.all[number]? = some ⟨label, address⟩
  byAddress : ∀ address number, symbols.byAddress.get? address = some number →
    ∃ label, symbols.all[number]? = some ⟨label, address⟩

theorem linked_empty : Linked .empty where
  byLabel := by simp [empty]
  byAddress := by simp [empty, AddressMap.get?, AddressMap.empty]

namespace Linked

theorem ne_of_lookup (linked : symbols.Linked) {place : Nat}
    (found : symbols.byLabel.lookup label = some place)
    (other : symbols.all[number]?.map Symbol.label ≠ some label) : place ≠ number := by
  rintro rfl
  obtain ⟨address, there⟩ := linked.byLabel label place found
  exact other (by rw [there]; rfl)

theorem ne_of_get? (linked : symbols.Linked) {place : Nat}
    (found : symbols.byAddress.get? address = some place)
    (other : symbols.all[number]?.map Symbol.address ≠ some address) : place ≠ number := by
  rintro rfl
  obtain ⟨label, there⟩ := linked.byAddress address place found
  exact other (by rw [there]; rfl)

end Linked

/-- A symbol takes a number, and nothing leads any more to what had the number
before. -/
structure Recorded (symbols next : Symbols) (number : Nat) (symbol : Symbol) : Prop where
  all : ∀ other, next.all[other]? = if other = number then some symbol else symbols.all[other]?
  byLabel : ∀ label, next.byLabel.lookup label =
    if label = symbol.label then some number
    else if symbols.all[number]?.map Symbol.label = some label then none
    else symbols.byLabel.lookup label
  byAddress : ∀ address, next.byAddress.get? address =
    if address = symbol.address then some number
    else if symbols.all[number]?.map Symbol.address = some address then none
    else symbols.byAddress.get? address

theorem recorded_insert (symbols : Symbols) (label : Label) (address : Address) :
    Recorded symbols (symbols.insert label address) symbols.all.size ⟨label, address⟩ where
  all other := by simp [insert, Array.getElem?_push]
  byLabel other := by
    simp only [insert, bindLabel, List.lookup_cons]
    split
    · next same => simp_all
    · next different =>
      have different : other ≠ label := by simpa using different
      simp [different, lookup_dropLabel different]
  byAddress other := by simp [insert, AddressMap.get?_insert]

theorem recorded_move {former : Address} (found : symbols.byLabel.lookup label = some number)
    (there : symbols.all[number]? = some ⟨label, former⟩) (address : Address) :
    Recorded symbols
      { symbols with
        all := symbols.all.setIfInBounds number ⟨label, address⟩
        byAddress := (symbols.byAddress.erase former).insert address number }
      number ⟨label, address⟩ where
  all other := by
    obtain ⟨bound, -⟩ := Array.getElem?_eq_some_iff.mp there
    simp [Array.getElem?_setIfInBounds, bound, eq_comm]
  byLabel other := by
    by_cases same : other = label
    · simp [same, found]
    · simp [same, there, Ne.symm same]
  byAddress other := by
    simp [AddressMap.get?_insert, AddressMap.get?_erase, there, eq_comm]

theorem recorded_replace {given : Label} (found : symbols.byAddress.get? address = some number)
    (there : symbols.all[number]? = some ⟨given, address⟩) (label : Label) :
    Recorded symbols
      { symbols with
        all := symbols.all.setIfInBounds number ⟨label, address⟩
        byLabel := bindLabel label number (dropLabel given symbols.byLabel) }
      number ⟨label, address⟩ where
  all other := by
    obtain ⟨bound, -⟩ := Array.getElem?_eq_some_iff.mp there
    simp [Array.getElem?_setIfInBounds, bound, eq_comm]
  byLabel other := by
    by_cases same : other = label
    · simp [same, bindLabel]
    · rw [if_neg same, bindLabel, List.lookup_cons, beq_false_of_ne same, lookup_dropLabel same, there]
      by_cases dropped : other = given
      · simp [dropped, lookup_dropLabel_self]
      · simp [lookup_dropLabel dropped, Ne.symm dropped]
  byAddress other := by
    by_cases same : other = address
    · simp [same, found]
    · simp [same, there, Ne.symm same]

namespace Recorded

theorem linked (recorded : Recorded symbols next number symbol) (linked : symbols.Linked) :
    next.Linked where
  byLabel label place found := by
    rw [recorded.byLabel] at found
    rw [recorded.all]
    split at found
    · next same =>
      obtain rfl := Option.some.inj found
      exact ⟨symbol.address, by rw [if_pos rfl, same]⟩
    · split at found
      · cases found
      · next other =>
        rw [if_neg (linked.ne_of_lookup found other)]
        exact linked.byLabel label place found
  byAddress address place found := by
    rw [recorded.byAddress] at found
    rw [recorded.all]
    split at found
    · next same =>
      obtain rfl := Option.some.inj found
      exact ⟨symbol.label, by rw [if_pos rfl, same]⟩
    · split at found
      · cases found
      · next other =>
        rw [if_neg (linked.ne_of_get? found other)]
        exact linked.byAddress address place found

theorem address? (recorded : Recorded symbols next number symbol) (linked : symbols.Linked)
    (label : Label) :
    next.address? label =
      if label = symbol.label then some symbol.address
      else if symbols.all[number]?.map Symbol.label = some label then none
      else symbols.address? label := by
  unfold Symbols.address? labelSymbol?
  rw [recorded.byLabel]
  split
  · simp [recorded.all]
  · split
    · rfl
    · next other =>
      cases found : symbols.byLabel.lookup label with
      | none => rfl
      | some place => simp [recorded.all, linked.ne_of_lookup found other]

theorem label? (recorded : Recorded symbols next number symbol) (linked : symbols.Linked)
    (address : Address) :
    next.label? address =
      if address = symbol.address then some symbol.label
      else if symbols.all[number]?.map Symbol.address = some address then none
      else symbols.label? address := by
  unfold Symbols.label? addressSymbol?
  rw [recorded.byAddress]
  split
  · simp [recorded.all]
  · split
    · rfl
    · next other =>
      cases found : symbols.byAddress.get? address with
      | none => rfl
      | some place => simp [recorded.all, linked.ne_of_get? found other]

end Recorded

inductive Upserted (symbols : Symbols) (label : Label) (address : Address) : Symbols → Prop where
  | known (leads : symbols.address? label = some address) : Upserted symbols label address symbols
  | moved {next : Symbols} {number : Nat} {former : Address}
      (leads : symbols.address? label = some former) (elsewhere : former ≠ address)
      (there : symbols.all[number]? = some ⟨label, former⟩)
      (recorded : Recorded symbols next number ⟨label, address⟩) : Upserted symbols label address next
  | replaced {next : Symbols} {number : Nat} {given : Label}
      (unused : symbols.address? label = none) (named : symbols.label? address = some given)
      (generated : isGenerated given = true) (there : symbols.all[number]? = some ⟨given, address⟩)
      (recorded : Recorded symbols next number ⟨label, address⟩) : Upserted symbols label address next
  | added {next : Symbols} {number : Nat} (unused : symbols.address? label = none)
      (chosen : ∀ given, symbols.label? address = some given → isGenerated given = false)
      (there : symbols.all[number]? = none)
      (recorded : Recorded symbols next number ⟨label, address⟩) : Upserted symbols label address next

theorem Linked.upserted (linked : symbols.Linked) (label : Label) (address : Address) :
    Upserted symbols label address (symbols.upsert label address) := by
  unfold upsert
  cases used : symbols.byLabel.lookup label with
  | some number =>
    obtain ⟨former, there⟩ := linked.byLabel label number used
    have leads := address?_of_lookup used there
    simp only [there]
    split
    · next same => exact .known (same ▸ leads)
    · next elsewhere => exact .moved leads elsewhere there (recorded_move used there address)
  | none =>
    have unused : symbols.address? label = none := by simp [Symbols.address?, labelSymbol?, used]
    have fresh := recorded_insert symbols label address
    cases found : symbols.byAddress.get? address with
    | some number =>
      obtain ⟨given, there⟩ := linked.byAddress address number found
      have named := label?_of_get? found there
      simp only [there]
      split
      · next generated =>
        exact .replaced unused named generated there (recorded_replace found there label)
      · next chosen =>
        refine .added unused (fun other same => ?_) (by simp) fresh
        obtain rfl := Option.some.inj (named.symm.trans same)
        simpa using chosen
    | none =>
      refine .added unused (fun given named => ?_) (by simp) fresh
      simp [Symbols.label?, addressSymbol?, found] at named

theorem Upserted.linked (upserted : Upserted symbols label address next) (linked : symbols.Linked) :
    next.Linked := by
  cases upserted with
  | known _ => exact linked
  | moved _ _ _ recorded | replaced _ _ _ _ recorded | added _ _ _ recorded =>
    exact recorded.linked linked

/-- An address that a label leads to has a name, and the name of an address
leads back to it. -/
structure Coherent (symbols : Symbols) : Prop where
  named : ∀ label address, symbols.address? label = some address → (symbols.label? address).isSome
  leads : ∀ label address, symbols.label? address = some label → symbols.address? label = some address

theorem coherent_empty : Coherent .empty where
  named := by simp [empty, address?, labelSymbol?]
  leads := by simp [empty, label?, addressSymbol?, AddressMap.get?, AddressMap.empty]

namespace Coherent

theorem replace (coherent : symbols.Coherent) (linked : symbols.Linked) {given : Label}
    (unused : symbols.address? label = none) (named : symbols.label? address = some given)
    (there : symbols.all[number]? = some ⟨given, address⟩)
    (recorded : Recorded symbols next number ⟨label, address⟩) : next.Coherent := by
  have addresses := recorded.address? linked
  have labels := recorded.label? linked
  simp only [there, Option.map_some, Option.some.injEq] at addresses labels
  -- The name that gives way leads here, so no other address goes by it.
  have back := coherent.leads given address named
  constructor
  · intro other place leads
    grind [coherent.named other place]
  · intro other place named
    grind [coherent.leads other place]

/-- A label that moves must be the only one that leads to its former address. -/
theorem move_iff (coherent : symbols.Coherent) (linked : symbols.Linked) {former : Address}
    (leads : symbols.address? label = some former) (elsewhere : former ≠ address)
    (there : symbols.all[number]? = some ⟨label, former⟩)
    (recorded : Recorded symbols next number ⟨label, address⟩) :
    next.Coherent ↔ ∀ other, symbols.address? other = some former → other = label := by
  have addresses := recorded.address? linked
  have labels := recorded.label? linked
  simp only [there, Option.map_some, Option.some.injEq] at addresses labels
  constructor
  · intro after other shared
    by_contra different
    -- The other label still leads to where there is no name now.
    have unnamed : next.label? former = none := by simp [labels, elsewhere]
    have named := after.named other former (by simp [addresses, different, Ne.symm different, shared])
    simp [unnamed] at named
  · intro alone
    constructor
    · intro other place leads
      grind [coherent.named other place]
    · intro other place named
      grind [coherent.leads other place]

/-- A new symbol must have a label that is the name of no other address. -/
theorem add_iff (coherent : symbols.Coherent) (linked : symbols.Linked)
    (there : symbols.all[number]? = none)
    (recorded : Recorded symbols next number ⟨label, address⟩) :
    next.Coherent ↔ ∀ place, symbols.label? place = some label → place = address := by
  have addresses := recorded.address? linked
  have labels := recorded.label? linked
  simp only [there, Option.map_none, reduceCtorEq, if_false] at addresses labels
  constructor
  · intro after place shared
    by_contra elsewhere
    -- The other address keeps the name, which leads to the new one.
    have leads := after.leads label place (by simp [labels, elsewhere, shared])
    simp [addresses, Ne.symm elsewhere] at leads
  · intro alone
    constructor
    · intro other place leads
      grind [coherent.named other place]
    · intro other place named
      grind [coherent.leads other place]

end Coherent

theorem Upserted.coherent_iff (upserted : Upserted symbols label address next)
    (linked : symbols.Linked) (coherent : symbols.Coherent) :
    next.Coherent ↔ ∀ former, symbols.address? label = some former → former ≠ address →
      ∀ other, symbols.address? other = some former → other = label := by
  cases upserted with
  | known leads => simp [coherent, leads]
  | moved leads elsewhere there recorded =>
    rw [coherent.move_iff linked leads elsewhere there recorded]
    simp [leads, elsewhere]
  | replaced unused named _ there recorded =>
    simp [coherent.replace linked unused named there recorded, unused]
  | added unused _ there recorded =>
    -- A label that leads nowhere is the name of no address.
    have free (place : Address) (named : symbols.label? place = some label) : place = address := by
      simp [coherent.leads label place named] at unused
    simp [(coherent.add_iff linked there recorded).mpr free, unused]

theorem Coherent.ensureLabel_iff (coherent : symbols.Coherent) (linked : symbols.Linked)
    (address : Address) (kind : ReferenceKind) :
    (symbols.ensureLabel address kind).Coherent ↔ (symbols.label? address = none →
      ∀ place, symbols.label? place ≠ some (generatedLabel kind address)) := by
  unfold ensureLabel
  cases named : symbols.label? address with
  | some label => simp [coherent]
  | none =>
    rw [coherent.add_iff linked (by simp) (recorded_insert _ _ _)]
    constructor
    · rintro alone - place shared
      rw [alone place shared, named] at shared
      cases shared
    · intro free place shared
      exact absurd shared (free rfl place)

end Symbols

inductive Naming where
  | upsert (label : Label) (address : Address)
  | ensure (address : Address) (kind : ReferenceKind)

namespace Naming

def perform (database : Database) : Naming → Database
  | .upsert label address => database.upsertSymbol label address
  | .ensure address kind => database.ensureLabel address kind

/-- Whether a naming takes no name from where it is still needed: a label that
moves away is not the name of an address for other labels too, and a generated
label is not the name of another address. -/
def Spares (symbols : Symbols) : Naming → Prop
  | .upsert label address => ∀ former, symbols.address? label = some former → former ≠ address →
      ∀ other, symbols.address? other = some former → other = label
  | .ensure address kind => symbols.label? address = none →
      ∀ place, symbols.label? place ≠ some (Symbols.generatedLabel kind address)

variable {database : Database}

theorem linked_perform (linked : database.symbols.Linked) (naming : Naming) :
    (naming.perform database).symbols.Linked := by
  cases naming with
  | upsert label address => exact (linked.upserted label address).linked linked
  | ensure address kind =>
    change (database.symbols.ensureLabel address kind).Linked
    unfold Symbols.ensureLabel
    split
    · exact linked
    · exact (Symbols.recorded_insert _ _ _).linked linked

theorem coherent_perform_iff (linked : database.symbols.Linked)
    (coherent : database.symbols.Coherent) (naming : Naming) :
    (naming.perform database).symbols.Coherent ↔ naming.Spares database.symbols := by
  cases naming with
  | upsert label address => exact (linked.upserted label address).coherent_iff linked coherent
  | ensure address kind => exact coherent.ensureLabel_iff linked address kind

end Naming

def Database.named (memory : Memory) (namings : List Naming) : Database :=
  namings.foldl Naming.perform (.ofMemory memory)

theorem Database.named_concat (memory : Memory) (namings : List Naming) (naming : Naming) :
    named memory (namings ++ [naming]) = naming.perform (named memory namings) := by
  simp [named]

theorem Database.linked_named (memory : Memory) (namings : List Naming) :
    (named memory namings).symbols.Linked :=
  List.foldlRecOn (motive := fun database => database.symbols.Linked) namings Naming.perform
    Symbols.linked_empty fun _ linked naming _ => naming.linked_perform linked

/-- Labels and addresses lead to each other after each of some namings exactly if
every naming spares the names that the ones before it gave. -/
theorem named_coherent_iff (memory : Memory) (namings : List Naming) :
    (∀ done, done <+: namings → (Database.named memory done).symbols.Coherent) ↔
      ∀ done naming, done ++ [naming] <+: namings →
        naming.Spares (Database.named memory done).symbols := by
  have linked := Database.linked_named memory
  constructor
  · intro coherent done naming here
    have before := coherent done ((List.prefix_append done [naming]).trans here)
    have after := coherent (done ++ [naming]) here
    rw [Database.named_concat] at after
    exact (naming.coherent_perform_iff (linked done) before).mp after
  · intro spares done here
    induction done using List.reverseRecOn with
    | nil => exact Symbols.coherent_empty
    | append_singleton done naming ih =>
      have before := ih ((List.prefix_append done [naming]).trans here)
      rw [Database.named_concat]
      exact (naming.coherent_perform_iff (linked done) before).mpr (spares done naming here)

/-- A label that moves takes the name of an address that another one leads to. -/
theorem named_incoherent_alias :
    let namings : List Naming := [.upsert ⟨"first"⟩ 16, .upsert ⟨"second"⟩ 16, .upsert ⟨"first"⟩ 32]
    let symbols := (Database.named .empty namings).symbols
    symbols.address? ⟨"second"⟩ = some 16 ∧ symbols.label? 16 = none := by
  decide +kernel

-- A generated label that was moved is made a second time.
example :
    let namings : List Naming := [.ensure 16 .code, .upsert ⟨"loc_10"⟩ 32, .ensure 16 .code]
    let symbols := (Database.named .empty namings).symbols
    symbols.label? 32 = some ⟨"loc_10"⟩ ∧ symbols.address? ⟨"loc_10"⟩ = some 16 := by
  decide +kernel

end H8
