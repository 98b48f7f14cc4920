import H8.Effects
import H8.Proofs.Decode.PrefixCode

/-! Recognizing jump tables while instructions become known.

A table that was recognized stays recognized, with the same elements, when more
instructions of the same memory are known: the walk back from the jump only
gets longer.
-/

set_option autoImplicit false

namespace H8

/-- The second view knows the same memory and at least as many instructions. -/
structure View.Extends (view grown : View) : Prop where
  read : grown.read = view.read
  isMapped : grown.isMapped = view.isMapped
  previous : ∀ {address previous : Address},
    view.previous? address = some previous → grown.previous? address = some previous

theorem View.Extends.decodeAt {view grown : View} (extended : view.Extends grown) (address : Address)
    (mode : Mode) : grown.decodeAt address mode = view.decodeAt address mode := by
  unfold View.decodeAt
  rw [extended.read, extended.isMapped]

/-- The pointer of a size stored at an address, in the address space of the mode.
A word from the upper half of its range stands for an address in the highest
pages. -/
def View.pointer? (view : View) (mode : Mode) (size : Nat) (address : Address) : Option Address :=
  if size = 2 then (view.readWord? address).map fun word =>
    (if word < 0x8000 then UInt32.ofNat word else 0xFFFF0000 + UInt32.ofNat word) &&& mode.addressMask
  else (view.readLong? address).map fun long => UInt32.ofNat long &&& mode.addressMask

theorem View.Extends.pointer? {view grown : View} (extended : view.Extends grown) :
    grown.pointer? = view.pointer? := by
  funext mode size address
  unfold View.pointer? View.readWord? View.readLong?
  rw [extended.read]

theorem View.decode_of_decodeAt {view : View} {address : Address} {mode : Mode}
    {instruction : Instruction} (decoded : view.decodeAt address mode = .ok instruction) :
    decode (view.read address maxInstructionLength) address mode = .ok instruction :=
  (View.decodeAt_eq_ok_iff.mp decoded).2

theorem View.address_of_decodeAt {view : View} {address : Address} {mode : Mode}
    {instruction : Instruction} (decodes : view.decodeAt address mode = .ok instruction) :
    instruction.address = address :=
  address_of_decode (View.decode_of_decodeAt decodes)

namespace Switch
variable {view grown : View} {mode : Mode} {jump : Address} {pointer : Fin 8}
  {window more : List Instruction} {table : SwitchTable}

theorem preceding_succ (view : View) (mode : Mode) (count : Nat) (address : Address) :
    preceding view mode (count + 1) address = [] ∨
      ∃ previous instruction, view.previous? address = some previous ∧
        view.decodeAt previous mode = .ok instruction ∧ instruction.next = address ∧
        preceding view mode (count + 1) address = instruction :: preceding view mode count previous := by
  rw [preceding]
  split
  · exact .inl rfl
  · next previous found =>
    split
    · exact .inl rfl
    · next instruction decodes =>
      split
      · next ends => exact .inr ⟨previous, instruction, found, decodes, ends, rfl⟩
      · exact .inl rfl

theorem mem_preceding {count : Nat} {address : Address} {instruction : Instruction}
    (member : instruction ∈ preceding view mode count address) :
    (∃ next, view.previous? next = some instruction.address) ∧
      view.decodeAt instruction.address mode = .ok instruction := by
  induction count generalizing address with
  | zero => cases member
  | succ count ih =>
    rcases preceding_succ view mode count address with empty | ⟨previous, first, found, decodes, -, walk⟩
    · rw [empty] at member
      cases member
    · rw [walk] at member
      rcases List.mem_cons.mp member with rfl | later
      · rw [View.address_of_decodeAt decodes]
        exact ⟨⟨address, found⟩, decodes⟩
      · exact ih later

theorem preceding_of_previous {count : Nat} {address previous : Address} {instruction : Instruction}
    (found : view.previous? address = some previous)
    (decodes : view.decodeAt previous mode = .ok instruction) (ends : instruction.next = address) :
    preceding view mode (count + 1) address = instruction :: preceding view mode count previous := by
  rw [preceding]
  simp [found, decodes, ends]

theorem preceding_extends (extended : view.Extends grown) (mode : Mode) (count : Nat) (address : Address) :
    ∃ more, preceding grown mode count address = preceding view mode count address ++ more := by
  induction count generalizing address with
  | zero => exact ⟨[], rfl⟩
  | succ count ih =>
    rcases preceding_succ view mode count address with
      empty | ⟨previous, instruction, found, decodes, ends, walk⟩
    · exact ⟨_, by rw [empty, List.nil_append]⟩
    · obtain ⟨more, rest⟩ := ih previous
      refine ⟨more, ?_⟩
      rw [← extended.decodeAt] at decodes
      rw [walk, preceding_of_previous (extended.previous found) decodes ends, rest, List.cons_append]

theorem preceding_eq_of_known (extended : view.Extends grown) {known : Address → Prop}
    (recalls : ∀ {address previous : Address}, known previous →
      grown.previous? address = some previous → view.previous? address = some previous)
    (count : Nat) (address : Address)
    (all : ∀ instruction ∈ preceding grown mode count address, known instruction.address) :
    preceding view mode count address = preceding grown mode count address := by
  induction count generalizing address with
  | zero => rfl
  | succ count ih =>
    rcases preceding_succ grown mode count address with
      empty | ⟨previous, instruction, found, decodes, ends, walk⟩
    · obtain ⟨more, longer⟩ := preceding_extends extended mode (count + 1) address
      rw [empty] at longer ⊢
      exact (List.append_eq_nil_iff.mp longer.symm).1
    · rw [walk] at all
      have here := all instruction (.head _)
      rw [View.address_of_decodeAt decodes] at here
      rw [extended.decodeAt] at decodes
      rw [walk, preceding_of_previous (recalls here found) decodes ends,
        ih previous fun other member => all other (.tail _ member)]

theorem scaling_append {index : Fin 8} {scale : Nat} {branch : Instruction}
    {window rest : List Instruction} (scaled : scaling index window = (scale, branch :: rest))
    (more : List Instruction) : scaling index (window ++ more) = (scale, branch :: (rest ++ more)) := by
  induction window generalizing scale with
  | nil => simp [scaling] at scaled
  | cons first window ih =>
    simp only [List.cons_append, scaling] at scaled ⊢
    cases step : scaleStep? index first with
    | none =>
      simp only [step, Prod.mk.injEq, List.cons.injEq] at scaled ⊢
      obtain ⟨rfl, rfl, rfl⟩ := scaled
      exact ⟨rfl, rfl, rfl⟩
    | some factor =>
      simp only [step] at scaled ⊢
      obtain ⟨inner, outer⟩ := Prod.mk.inj scaled
      rw [ih (Prod.ext rfl outer)]
      exact Prod.ext inner rfl

/-- The instructions in front of a jump, nearest first, bound an index and load
an element of a table: what is loaded, where other indices go, and how many
elements there are. -/
inductive Idiom (mode : Mode) (pointer : Fin 8) : List Instruction → Load → Address → Nat → Prop
  | parts {first branch comparison : Instruction} {rest others : List Instruction} {load : Load}
      {inclusive : Bool} {default : Address} {bound : Nat} :
      load? mode pointer first = some load →
      scaling load.index rest = (load.elementSize, branch :: comparison :: others) →
      guard? branch = some (inclusive, default) → bound? load.index comparison = some bound →
      Idiom mode pointer (first :: rest) load default (if inclusive then bound + 1 else bound)

theorem Idiom.append {load : Load} {default : Address} {count : Nat}
    (idiom : Idiom mode pointer window load default count) (more : List Instruction) :
    Idiom mode pointer (window ++ more) load default count := by
  cases idiom with
  | parts loads scaled guards bounds => exact .parts loads (scaling_append scaled more) guards bounds

theorem table?_eq_some_iff : table? view mode jump pointer window = some table ↔
    ∃ load, Idiom mode pointer window load table.default table.count ∧
      0 < table.count ∧ table.count ≤ maxSwitchCases ∧
      (List.range table.count).mapM (element? view mode load) = some table.targets ∧
      table.jump = jump ∧ table.table = load.table ∧ table.elementSize = load.elementSize := by
  constructor
  · intro found
    unfold table? at found
    split at found
    · cases found
    · next first rest =>
      simp only [Option.bind_eq_bind, Option.bind_eq_some_iff] at found
      obtain ⟨load, loads, found⟩ := found
      split at found
      · next scale branch comparisons scaled =>
        by_cases same : scale = load.elementSize
        · rw [if_neg (not_not_intro same)] at found
          simp only [Option.bind_eq_some_iff] at found
          obtain ⟨⟨inclusive, default⟩, guards, comparison, compares, bound, bounds, found⟩ := found
          obtain ⟨others, rfl⟩ := List.head?_eq_some_iff.mp compares
          rw [same] at scaled
          have idiom := Idiom.parts loads scaled guards bounds
          dsimp only at found
          generalize (if inclusive = true then bound + 1 else bound) = count at found idiom
          split at found
          · cases found
          · next believed =>
            obtain ⟨targets, elements, made⟩ := Option.bind_eq_some_iff.mp found
            obtain rfl := Option.some.inj made
            simp only [Bool.or_eq_true, decide_eq_true_eq, not_or, Nat.not_lt, gt_iff_lt] at believed
            exact ⟨load, idiom, Nat.pos_of_ne_zero believed.1, believed.2, elements, rfl, rfl, rfl⟩
        · rw [if_pos same] at found
          cases found
      · cases found
  · rintro ⟨load, idiom, pos, few, elements, atJump, atTable, sized⟩
    have believed : ¬ (table.count = 0 ∨ maxSwitchCases < table.count) := by omega
    obtain ⟨jump', table', elementSize', count, default, targets⟩ := table
    dsimp only at idiom pos few elements atJump atTable sized believed
    cases idiom with
    | parts loads scaled guards bounds =>
      unfold table?
      simp only [loads, scaled, guards, bounds, elements, believed, ← atJump, ← atTable, ← sized,
        Option.bind_eq_bind, Option.bind_some, List.head?_cons, ne_eq, not_true_eq_false, if_false,
        Bool.or_eq_true, decide_eq_true_eq, gt_iff_lt]
      rfl

theorem lt_of_readWord? {address : Address} {word : Nat} (read : view.readWord? address = some word) :
    word < 0x10000 := by
  unfold View.readWord? at read
  split at read
  · next high low _ =>
    cases read
    have first := high.toNat_lt
    have second := low.toNat_lt
    omega
  · cases read

theorem shortAbsolute_eq {word : Nat} (small : word < 0x10000) : shortAbsolute mode word =
    (if word < 0x8000 then UInt32.ofNat word else 0xFFFF0000 + UInt32.ofNat word) &&& mode.addressMask := by
  have unsigned : UInt32.ofInt word = UInt32.ofNat word := by
    have inside : ((word : Int) % 2 ^ 32).toNat = word := by omega
    rw [UInt32.ofInt, inside]
  have wrapped : Width.word.wrap word = if word < 0x8000 then (word : Int) else -0x10000 + word := by
    change Int.bmod word 0x10000 = _
    rw [Int.bmod_def]
    omega
  have extended : UInt32.ofInt (Width.word.wrap word) =
      if word < 0x8000 then UInt32.ofNat word else 0xFFFF0000 + UInt32.ofNat word := by
    rw [wrapped]
    split
    · exact unsigned
    · rw [UInt32.ofInt_add, unsigned]
      rfl
  rw [shortAbsolute, extended]

theorem element?_eq (load : Load) (position : Nat) : element? view mode load position =
    view.pointer? mode load.elementSize (load.table + UInt32.ofNat (position * load.elementSize)) := by
  unfold element? View.pointer?
  split
  · refine Option.map_congr fun word read => ?_
    exact shortAbsolute_eq (lt_of_readWord? read)
  · rfl

/-- The elements are read from memory, whatever instructions are known. -/
theorem table?_eq (extended : view.Extends grown) :
    table? grown mode jump pointer window = table? view mode jump pointer window := by
  have same : element? grown mode = element? view mode := by
    funext load position
    rw [element?_eq, element?_eq, extended.pointer?]
  unfold table?
  rw [same]

theorem table?_append (found : table? view mode jump pointer window = some table)
    (more : List Instruction) : table? view mode jump pointer (window ++ more) = some table := by
  obtain ⟨load, idiom, facts⟩ := table?_eq_some_iff.mp found
  exact table?_eq_some_iff.mpr ⟨load, idiom.append more, facts⟩

theorem elementSize_of_load? {instruction : Instruction} {load : Load}
    (loads : load? mode pointer instruction = some load) :
    load.elementSize = 2 ∨ load.elementSize = 4 := by
  unfold load? at loads
  split at loads
  · next width _ _ _ _ _ _ _ =>
    split at loads
    · next conditions =>
      obtain ⟨index, -, rfl⟩ := Option.map_eq_some_iff.mp loads
      cases width with
      | byte => simp at conditions
      | word => exact .inl rfl
      | long => exact .inr rfl
    · cases loads
  · cases loads

theorem Idiom.elementSize {load : Load} {default : Address} {count : Nat}
    (idiom : Idiom mode pointer window load default count) :
    load.elementSize = 2 ∨ load.elementSize = 4 := by
  cases idiom with
  | parts loads _ _ _ => exact elementSize_of_load? loads

theorem mapM_eq_some_iff {Item Value : Type} {make : Item → Option Value} {items : List Item}
    {values : List Value} : items.mapM make = some values ↔ items.map make = values.map some := by
  induction items generalizing values with
  | nil => cases values <;> simp
  | cons item items ih =>
    rw [List.mapM_cons, List.map_cons]
    cases values with
    | nil => cases make item <;> cases items.mapM make <;> simp
    | cons value values =>
      rw [List.map_cons, List.cons.injEq, ← ih]
      cases make item <;> cases items.mapM make <;> simp

theorem mapM_range_eq_some_iff {Value : Type} {make : Nat → Option Value} {count : Nat}
    {values : List Value} : (List.range count).mapM make = some values ↔
      values.length = count ∧ ∀ position < count, values[position]? = make position := by
  rw [mapM_eq_some_iff]
  constructor
  · intro each
    have length : values.length = count := by
      simpa using (congrArg List.length each).symm
    refine ⟨length, fun position inside => ?_⟩
    have here := congrArg (·[position]?) each
    rw [List.getElem?_map, List.getElem?_map, List.getElem?_range inside] at here
    rw [List.getElem?_eq_getElem (by omega)] at here ⊢
    exact (Option.some.inj here).symm
  · rintro ⟨rfl, each⟩
    apply List.ext_getElem
    · rw [List.length_map, List.length_map, List.length_range]
    · intro position inside _
      rw [List.length_map, List.length_range] at inside
      rw [List.getElem_map, List.getElem_map, List.getElem_range, ← each position inside,
        List.getElem?_eq_getElem inside]

end Switch

section
variable {view grown : View} {mode : Mode} {jump : Instruction} {table : SwitchTable}

theorem findSwitch?_eq_some_iff : findSwitch? view mode jump = some table ↔
    ∃ pointer, Switch.pointer? jump = some pointer ∧
      Switch.table? view mode jump.address pointer
        (Switch.preceding view mode (switchWindow - 1) jump.address) = some table := by
  unfold findSwitch?
  cases Switch.pointer? jump <;> simp

theorem findSwitch?_extends (extended : view.Extends grown)
    (found : findSwitch? view mode jump = some table) : findSwitch? grown mode jump = some table := by
  obtain ⟨pointer, through, found⟩ := findSwitch?_eq_some_iff.mp found
  obtain ⟨more, walk⟩ := Switch.preceding_extends extended mode (switchWindow - 1) jump.address
  refine findSwitch?_eq_some_iff.mpr ⟨pointer, through, ?_⟩
  rw [walk, Switch.table?_eq extended]
  exact Switch.table?_append found more

theorem findSwitch?_eq_of_known (extended : view.Extends grown) {known : Address → Prop}
    (recalls : ∀ {address previous : Address}, known previous →
      grown.previous? address = some previous → view.previous? address = some previous)
    (all : ∀ instruction ∈ Switch.preceding grown mode (switchWindow - 1) jump.address,
      known instruction.address) :
    findSwitch? view mode jump = findSwitch? grown mode jump := by
  unfold findSwitch?
  rw [Switch.preceding_eq_of_known extended recalls _ _ all]
  simp only [Switch.table?_eq extended]

structure SwitchTable.Read (view : View) (mode : Mode) (table : SwitchTable) : Prop where
  size : table.elementSize = 2 ∨ table.elementSize = 4
  count : table.targets.length = table.count
  pos : 0 < table.count
  few : table.count ≤ maxSwitchCases
  elements : ∀ position < table.count, table.targets[position]? =
    view.pointer? mode table.elementSize
      (table.table + UInt32.ofNat (position * table.elementSize))

theorem read_of_findSwitch? (found : findSwitch? view mode jump = some table) :
    table.jump = jump.address ∧ table.Read view mode := by
  obtain ⟨pointer, -, found⟩ := findSwitch?_eq_some_iff.mp found
  obtain ⟨load, idiom, pos, few, elements, atJump, atTable, sized⟩ := Switch.table?_eq_some_iff.mp found
  obtain ⟨count, each⟩ := Switch.mapM_range_eq_some_iff.mp elements
  refine ⟨atJump, ⟨sized ▸ idiom.elementSize, count, pos, few, fun position inside => ?_⟩⟩
  rw [atTable, sized, ← Switch.element?_eq]
  exact each position inside

end

end H8
