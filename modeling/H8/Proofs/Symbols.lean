import H8.Proofs.Scan.Steps
import H8.Proofs.Text.Numeral

/-! Generated names.

A generated name tells its address, so names that are only generated are as
distinct as the addresses they stand for. Both indices then find exactly the
symbols there are, and a name and its address lead to each other.
-/

set_option autoImplicit false

namespace H8

open Assembly (Label)

theorem ReferenceKind.length_labelStem (kind : ReferenceKind) : kind.labelStem.toList.length = 3 := by
  cases kind <;> simp [labelStem]

namespace Symbols
variable {symbols : Symbols} {label : Label} {address : Address} {symbol : Symbol}

theorem generatedLabel_inj {kind other : ReferenceKind} {first second : Address}
    (same : generatedLabel kind first = generatedLabel other second) : first = second := by
  have names : kind.labelStem.toList ++ '_' :: Text.hexDigits first.toNat =
      other.labelStem.toList ++ '_' :: Text.hexDigits second.toNat := by
    simpa [generatedLabel, Text.hex] using congrArg (fun label => label.name.toList) same
  have stems : kind.labelStem.toList.length = other.labelStem.toList.length := by
    rw [ReferenceKind.length_labelStem, ReferenceKind.length_labelStem]
  have digits := (List.cons.inj (List.append_inj names stems).2).2
  exact UInt32.toNat_inj.mp (Text.hexDigits_inj digits)

/-- Both indices find exactly the symbols there are, all of which have generated
names. -/
structure Indexed (symbols : Symbols) : Prop where
  byAddress : ∀ address number, symbols.byAddress.get? address = some number ↔
    ∃ symbol, symbols.all[number]? = some symbol ∧ symbol.address = address
  byLabel : ∀ label number, symbols.byLabel.lookup label = some number ↔
    ∃ symbol, symbols.all[number]? = some symbol ∧ symbol.label = label
  generated : ∀ symbol ∈ symbols.all, ∃ kind, symbol.label = generatedLabel kind symbol.address

theorem indexed_empty : Indexed .empty where
  byAddress := by simp [empty, AddressMap.get?, AddressMap.empty]
  byLabel := by simp [empty]
  generated := by simp [empty]

theorem lookup_dropLabel {other : Label} (different : other ≠ label) (byLabel : List (Label × Nat)) :
    (dropLabel label byLabel).lookup other = byLabel.lookup other := by
  induction byLabel with
  | nil => rfl
  | cons entry rest ih =>
    obtain ⟨name, number⟩ := entry
    unfold dropLabel at ih ⊢
    rw [List.filter_cons]
    split
    · rw [List.lookup_cons, List.lookup_cons, ih]
    · next dropped =>
      obtain rfl : name = label := by simpa using dropped
      rw [List.lookup_cons, beq_false_of_ne different, ih]

namespace Indexed

theorem addressSymbol?_eq_some_iff (indexed : Indexed symbols) :
    symbols.addressSymbol? address = some symbol ↔ symbol ∈ symbols.all ∧ symbol.address = address := by
  unfold addressSymbol?
  rw [Option.bind_eq_some_iff, Array.mem_iff_getElem?]
  constructor
  · rintro ⟨number, found, here⟩
    obtain ⟨_, same, rfl⟩ := (indexed.byAddress address number).mp found
    obtain rfl := Option.some.inj (same.symm.trans here)
    exact ⟨⟨number, here⟩, rfl⟩
  · rintro ⟨⟨number, here⟩, same⟩
    exact ⟨number, (indexed.byAddress address number).mpr ⟨symbol, here, same⟩, here⟩

theorem labelSymbol?_eq_some_iff (indexed : Indexed symbols) :
    symbols.labelSymbol? label = some symbol ↔ symbol ∈ symbols.all ∧ symbol.label = label := by
  unfold labelSymbol?
  rw [Option.bind_eq_some_iff, Array.mem_iff_getElem?]
  constructor
  · rintro ⟨number, found, here⟩
    obtain ⟨_, same, rfl⟩ := (indexed.byLabel label number).mp found
    obtain rfl := Option.some.inj (same.symm.trans here)
    exact ⟨⟨number, here⟩, rfl⟩
  · rintro ⟨⟨number, here⟩, same⟩
    exact ⟨number, (indexed.byLabel label number).mpr ⟨symbol, here, same⟩, here⟩

theorem label?_eq_some_iff (indexed : Indexed symbols) :
    symbols.label? address = some label ↔ ⟨label, address⟩ ∈ symbols.all := by
  unfold label?
  rw [Option.map_eq_some_iff]
  constructor
  · rintro ⟨⟨label, address⟩, found, rfl⟩
    obtain ⟨member, rfl⟩ := indexed.addressSymbol?_eq_some_iff.mp found
    exact member
  · intro member
    exact ⟨_, indexed.addressSymbol?_eq_some_iff.mpr ⟨member, rfl⟩, rfl⟩

theorem address?_eq_some_iff (indexed : Indexed symbols) :
    symbols.address? label = some address ↔ ⟨label, address⟩ ∈ symbols.all := by
  unfold address?
  rw [Option.map_eq_some_iff]
  constructor
  · rintro ⟨⟨label, address⟩, found, rfl⟩
    obtain ⟨member, rfl⟩ := indexed.labelSymbol?_eq_some_iff.mp found
    exact member
  · intro member
    exact ⟨_, indexed.labelSymbol?_eq_some_iff.mpr ⟨member, rfl⟩, rfl⟩

theorem label?_eq_some_iff_address? (indexed : Indexed symbols) :
    symbols.label? address = some label ↔ symbols.address? label = some address := by
  rw [indexed.label?_eq_some_iff, indexed.address?_eq_some_iff]

theorem insert (indexed : Indexed symbols) (kind : ReferenceKind)
    (fresh : ∀ symbol ∈ symbols.all, symbol.address ≠ address) :
    Indexed (symbols.insert (generatedLabel kind address) address) := by
  have distinct : ∀ symbol ∈ symbols.all, symbol.label ≠ generatedLabel kind address := by
    intro symbol member same
    obtain ⟨other, made⟩ := indexed.generated symbol member
    exact fresh symbol member (generatedLabel_inj (made.symm.trans same))
  have found (number : Nat) (holds : Symbol → Prop) :
      (∃ symbol, (symbols.insert (generatedLabel kind address) address).all[number]? = some symbol ∧
        holds symbol) ↔
      number = symbols.all.size ∧ holds ⟨generatedLabel kind address, address⟩ ∨
        ∃ symbol, symbols.all[number]? = some symbol ∧ holds symbol := by
    change (∃ symbol, (symbols.all.push _)[number]? = some symbol ∧ _) ↔ _
    rw [Array.getElem?_push]
    split
    · next last => simp [last]
    · next old => simp [old]
  refine ⟨fun other number => ?_, fun other number => ?_, fun symbol member => ?_⟩
  · have unused : symbols.byAddress.get? address ≠ some number := by
      intro used
      obtain ⟨symbol, here, same⟩ := (indexed.byAddress address number).mp used
      exact fresh symbol (Array.mem_of_getElem? here) same
    rw [found, ← indexed.byAddress, AddressMap.get?_eq_some_iff, AddressMap.get?_eq_some_iff]
    rw [ne_eq, AddressMap.get?_eq_some_iff] at unused
    change (other, number) ∈ (symbols.byAddress.insert address symbols.all.size).entries ↔ _
    rw [AddressMap.mem_insert_iff, Prod.mk.injEq]
    constructor
    · rintro (⟨rfl, rfl⟩ | ⟨old, -⟩)
      · exact .inl ⟨rfl, rfl⟩
      · exact .inr old
    · rintro (⟨rfl, rfl⟩ | old)
      · exact .inl ⟨rfl, rfl⟩
      · exact .inr ⟨old, fun same => unused (same ▸ old)⟩
  · have unused : symbols.byLabel.lookup (generatedLabel kind address) ≠ some number := by
      intro used
      obtain ⟨symbol, here, same⟩ := (indexed.byLabel _ number).mp used
      exact distinct symbol (Array.mem_of_getElem? here) same
    rw [found, ← indexed.byLabel]
    change ((generatedLabel kind address, symbols.all.size) ::
      dropLabel (generatedLabel kind address) symbols.byLabel).lookup other = some number ↔ _
    rw [List.lookup_cons]
    by_cases same : other = generatedLabel kind address
    · subst same
      simp [unused, eq_comm]
    · rw [beq_false_of_ne same, lookup_dropLabel same]
      simp [Ne.symm same]
  · rcases Array.mem_push.mp member with old | rfl
    · exact indexed.generated symbol old
    · exact ⟨kind, rfl⟩

theorem ensureLabel (indexed : Indexed symbols) (address : Address) (kind : ReferenceKind) :
    Indexed (symbols.ensureLabel address kind) := by
  unfold Symbols.ensureLabel
  split
  · exact indexed
  · next unnamed =>
    refine indexed.insert kind fun symbol member same => ?_
    have named : symbols.label? address = some symbol.label :=
      indexed.label?_eq_some_iff.mpr (same ▸ member)
    rw [unnamed] at named
    cases named

end Indexed

end Symbols

namespace Database

theorem symbols_addReference (database : Database) (reference : Reference) :
    (database.addReference reference).symbols = database.symbols := by
  unfold addReference
  split <;> rfl

theorem symbols_start (database : Database) (entries : List Address) :
    (Trace.start database entries).database.symbols = database.symbols :=
  foldl_keeps symbols (fun (_ : Database) (entry : Address) => (rfl : (insertFunction _ entry).symbols = _))
    _ database

theorem symbols_describeFunction (mode : Mode) (database : Database) (entry : Address) :
    (database.describeFunction mode entry).symbols = database.symbols.ensureLabel entry .subroutine := by
  unfold describeFunction
  dsimp only
  split <;> rfl

end Database

theorem Trace.symbols_record (trace : Trace) (instruction : Instruction) (effects : Effects) :
    (trace.record instruction effects).database.symbols = trace.database.symbols := by
  unfold record
  dsimp only
  rw [foldl_keeps Database.symbols Database.symbols_addReference]
  cases effects.switch <;> rfl

theorem Step.symbols {mode : Mode} {trace next : Trace} {now : List Marking}
    (step : Step mode trace now next) : next.database.symbols = trace.database.symbols := by
  cases step with
  | seen _ _ | passed _ _ _ => rfl
  | marked _ _ unknown _ accepted =>
    rw [Trace.symbols_record, Database.markHead?_eq_some unknown accepted]

theorem Database.indexed_scan {database : Database} (indexed : database.symbols.Indexed)
    (entries : List Address) (mode : Mode) : (database.scan entries mode).1.symbols.Indexed := by
  obtain ⟨⟨history, runs⟩, -⟩ := exists_runs_run mode (.start database entries)
  have traced : (Trace.run mode (.start database entries)).database.symbols.Indexed := by
    refine runs.keeps (fun _ trace => trace.database.symbols.Indexed) (fun indexed step => ?_) [] ?_
    · rw [step.symbols]
      exact indexed
    · rw [symbols_start]
      exact indexed
  unfold scan Trace.conclude
  refine List.foldlRecOn (motive := fun database => database.symbols.Indexed) _ labelTarget
    (List.foldlRecOn (motive := fun database => database.symbols.Indexed) _ (describeFunction mode)
      traced fun described indexed entry _ => ?_) fun labelled indexed target _ => ?_
  · rw [symbols_describeFunction]
    exact indexed.ensureLabel entry .subroutine
  · unfold labelTarget
    split
    · exact indexed.ensureLabel target.1 target.2
    · exact indexed

end H8
