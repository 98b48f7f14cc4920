import H8.Proofs.Json.Shape
import H8.Proofs.Json.Skip

/-! Faithful formats.

A format is faithful if it agrees with what shapes make of JSON values: what is
read from a text is what the shape makes of some value, and from the text that
a value is written as it reads what the shape makes of that value. The standard
format is faithful: both parts follow the shape, one case for each kind.
-/

set_option autoImplicit false

namespace H8.Json

open Reader

variable {State Value : Type}

/-- Arrays and objects are nested at most as deep as given. -/
inductive Within : Nat → Json → Prop where
  | null (depth : Nat) : Within depth .null
  | number (depth value : Nat) : Within depth (.number value)
  | text (depth : Nat) (value : String) : Within depth (.text value)
  | array {depth : Nat} {items : List Json} : (∀ item ∈ items, Within depth item) →
      Within (depth + 1) (.array items)
  | object {depth : Nat} {fields : List (String × Json)} : (∀ field ∈ fields, Within depth field.2) →
      Within (depth + 1) (.object fields)

theorem Within.ofOption {encode : Value → Json} {depth : Nat} (each : ∀ value, Within depth (encode value))
    (value? : Option Value) : Within depth (.ofOption encode value?) := by
  cases value? with
  | none => exact .null depth
  | some value => exact each value

theorem Within.texts (texts : List String) : Within 1 (.array (texts.map .text)) :=
  .array (List.forall_mem_map.mpr fun text _ => .text 0 text)

theorem Within.mono {depth deeper : Nat} {json : Json} (within : Within depth json) (le : depth ≤ deeper) :
    Within deeper json := by
  induction within generalizing deeper with
  | null => exact .null deeper
  | number _ value => exact .number deeper value
  | text _ value => exact .text deeper value
  | array _ ih =>
    obtain ⟨deeper, rfl⟩ : ∃ less, deeper = less + 1 := ⟨deeper - 1, by omega⟩
    exact .array fun item member => ih item member (by omega)
  | object _ ih =>
    obtain ⟨deeper, rfl⟩ : ∃ less, deeper = less + 1 := ⟨deeper - 1, by omega⟩
    exact .object fun field member => ih field member (by omega)

/-- How deep a reader has to follow. -/
def nestingLimit : Nat := 127

structure Format.Faithful (format : Format) : Prop where
  made_of_read {Value : Type} {shape : Shape Value} {bytes : Bytes} {value : Value} :
    format.read shape bytes = .ok value → ∃ json, shape.ofJson? json = some value
  read_write {Value : Type} {shape : Shape Value} {json : Json} {value : Value} :
    Within nestingLimit json → shape.ofJson? json = some value →
      format.read shape (format.write json) = .ok value

/-! ### What is written is read -/

section Written

variable {make : State → String → Json → Option State} {field : State → String → Reader State}

theorem forall₂_of_mapM {First Second : Type} {make : First → Option Second} {firsts : List First}
    {seconds : List Second} (made : firsts.mapM make = some seconds) :
    List.Forall₂ (fun first second => make first = some second) firsts seconds := by
  induction firsts generalizing seconds with
  | nil =>
    cases made
    exact .nil
  | cons first firsts ih =>
    rw [List.mapM_cons] at made
    obtain ⟨second, one, made⟩ := Option.bind_eq_some_iff.mp made
    obtain ⟨others, later, same⟩ := Option.bind_eq_some_iff.mp made
    cases same
    exact .cons one (ih later)

theorem fieldsRead_of_foldlM {written : List (String × Json)} {state last : State}
    (reads : ∀ {state name json next}, make state name json = some next → Reads (field state name) json next)
    (made : written.foldlM (fun state entry => make state entry.1 entry.2) state = some last) :
    FieldsRead field state written last := by
  induction written generalizing state with
  | nil =>
    cases made
    exact .nil _
  | cons entry written ih =>
    rw [List.foldlM_cons] at made
    obtain ⟨next, one, later⟩ := Option.bind_eq_some_iff.mp made
    exact .cons (reads one) (ih later)

theorem Reads.variant {ofName? : String → Option Value} {json : Json} {value : Value}
    (made : (Shape.name? json).bind ofName? = some value) : Reads (Reader.variant ofName?) json value := by
  obtain ⟨name, written, known⟩ := Option.bind_eq_some_iff.mp made
  unfold Shape.name? at written
  split at written
  · cases written
    exact .variant_text known
  · cases written
    exact .variant_object known
  · cases written

theorem Reads.record {names : List String} {initial state : State} {json : Json} {fields : List (String × Json)}
    (written : Shape.fields? names json = some fields) (read : FieldsRead field initial fields state) :
    Reads (Reader.record names field initial) json state := by
  unfold Shape.fields? at written
  split at written
  · split at written
    · next distinct =>
      cases written
      exact .record_object read distinct
    · cases written
  · split at written
    · next short =>
      cases written
      exact .record_array short read
    · cases written
  · cases written

theorem Shape.reads {shape : Shape Value} {json : Json} {value : Value}
    (made : shape.ofJson? json = some value) : Reads shape.reader json value := by
  induction shape generalizing json with
  | anything =>
    cases made
    exact .skipValue json
  | text =>
    cases json with
    | text _ =>
      cases made
      exact .text value
    | null | number _ | array _ | object _ => cases made
  | natural32 =>
    cases json with
    | number number =>
      obtain ⟨small, same⟩ := Option.ite_none_right_eq_some.mp made
      cases same
      exact .natural32 small
    | null | text _ | array _ | object _ => cases made
  | nullable shape ih =>
    by_cases missing : json = .null
    · subst missing
      cases made
      exact .null
    · rw [ofJson?_nullable shape missing] at made
      obtain ⟨inner, within, rfl⟩ := Option.map_eq_some_iff.mp made
      exact (ih within).nullable missing
  | array item ih =>
    cases json with
    | array items => exact .array ((forall₂_of_mapM made).imp fun _ _ => ih)
    | null | number _ | text _ | object _ => cases made
  | variant ofName? => exact .variant made
  | object entry initial ih =>
    cases json with
    | object fields => exact .object (fieldsRead_of_foldlM (fun made => ih _ _ made) made) (by simp)
    | null | number _ | text _ | array _ => cases made
  | record names field initial ih =>
    obtain ⟨fields, written, made⟩ := Option.bind_eq_some_iff.mp made
    exact .record written (fieldsRead_of_foldlM (fun made => ih _ _ made) made)
  | refine change shape ih =>
    obtain ⟨inner, made, stands⟩ := Option.bind_eq_some_iff.mp made
    exact (ih made).refine stands

end Written

/-! ### What is read is made of a value -/

/-- Whatever the text is, what is read from it is made out of a JSON value, which
is not `null` unless the text says so. -/
def Makes (reader : Reader Value) (make : Json → Option Value) : Prop :=
  ∀ ⦃input value rest⦄, reader input = .ok (value, rest) →
    ∃ json, make json = some value ∧ (json = .null → ∃ after, nextToken input = .ok ('n', after))

theorem Makes.of_ne_null {reader : Reader Value} {make : Json → Option Value}
    (made : ∀ ⦃input value rest⦄, reader input = .ok (value, rest) → ∃ json ≠ .null, make json = some value) :
    Makes reader make := by
  intro input value rest found
  obtain ⟨json, present, same⟩ := made found
  exact ⟨json, same, fun missing => absurd missing present⟩

section Read

variable {make : State → String → Json → Option State} {field : State → String → Reader State}
  {isDistinct : String → Bool} {names : List String} {initial state : State} {input rest : Bytes}

theorem exists_of_array {item : Reader Value} {makeItem : Json → Option Value} {values : List Value}
    (makes : Makes item makeItem) (found : Reader.array item input = .ok (values, rest)) :
    ∃ items : List Json, items.mapM makeItem = some values := by
  obtain ⟨start, found⟩ := array_eq_ok found
  refine holds_of_iterate (fun done : Array Value => ∃ items : List Json, items.mapM makeItem = some done.toList)
    (fun values => ∃ items : List Json, items.mapM makeItem = some values) ?_ ?_ ⟨[], rfl⟩ found
  · intro done input next rest ⟨items, made⟩ taken
    obtain same | ⟨element, state, start, same, read, again⟩ := elementStep_cases taken
    · cases same
    · cases same
      cases again
      obtain ⟨value, item, rfl⟩ := map_eq_ok read
      obtain ⟨json, one, -⟩ := makes item
      refine ⟨items ++ [json], ?_⟩
      simp [List.mapM_append, made, one]
  · intro done input value rest ⟨items, made⟩ taken
    obtain same | ⟨_, _, _, _, _, again⟩ := elementStep_cases taken
    · cases same
      exact ⟨items, made⟩
    · cases again

theorem foldlM_concat {written : List (String × Json)} {name : String} {json : Json} {next : State}
    (made : written.foldlM (fun state entry => make state entry.1 entry.2) initial = some state)
    (one : make state name json = some next) :
    (written ++ [(name, json)]).foldlM (fun state entry => make state entry.1 entry.2) initial = some next := by
  rw [List.foldlM_append, made]
  simp [one]

theorem nodup_filter_concat {names : List String} {name : String}
    (fresh : (isDistinct name && names.contains name) = false) (distinct : (names.filter isDistinct).Nodup) :
    ((names ++ [name]).filter isDistinct).Nodup := by
  cases known : isDistinct name with
  | false => simpa [List.filter_append, known] using distinct
  | true =>
    rw [known, Bool.true_and, ← Bool.not_eq_true, List.contains_iff_mem] at fresh
    rw [List.filter_append, List.filter_cons_of_pos known, List.filter_nil, List.nodup_append]
    refine ⟨distinct, List.pairwise_singleton _ _, fun other member last same => ?_⟩
    rw [List.mem_singleton.mp same]
    rintro rfl
    exact fresh (List.mem_filter.mp member).1

theorem exists_of_object (makes : ∀ state name, Makes (field state name) (make state name))
    (found : Reader.object isDistinct field initial input = .ok (state, rest)) :
    ∃ written : List (String × Json), ((written.map Prod.fst).filter isDistinct).Nodup ∧
      written.foldlM (fun state entry => make state entry.1 entry.2) initial = some state := by
  obtain ⟨start, found⟩ := object_eq_ok found
  refine holds_of_iterate (fun fields : Fields State => ∃ written : List (String × Json),
    written.map Prod.fst = fields.names.reverse ∧ ((written.map Prod.fst).filter isDistinct).Nodup ∧
      written.foldlM (fun state entry => make state entry.1 entry.2) initial = some fields.state)
    (fun state => ∃ written : List (String × Json), ((written.map Prod.fst).filter isDistinct).Nodup ∧
      written.foldlM (fun state entry => make state entry.1 entry.2) initial = some state)
    ?_ ?_ ⟨[], rfl, .nil, rfl⟩ found
  · intro fields input next rest ⟨written, names, distinct, made⟩ taken
    obtain same | ⟨name, state, start, fresh, read, again⟩ := objectStep_cases taken
    · cases same
    · cases again
      obtain ⟨json, one, -⟩ := makes _ _ read
      refine ⟨written ++ [(name, json)], by simp [names], ?_, foldlM_concat made one⟩
      rw [List.map_append]
      exact nodup_filter_concat (by simpa [names] using fresh) distinct
  · intro fields input value rest ⟨written, _, distinct, made⟩ taken
    obtain same | ⟨_, _, _, _, _, again⟩ := objectStep_cases taken
    · cases same
      exact ⟨written, distinct, made⟩
    · cases again

theorem exists_of_elements (makes : ∀ state name, Makes (field state name) (make state name))
    (found : iterate (recordStep field) ⟨true, names, initial⟩ input = .ok (state, rest)) :
    ∃ items : List Json, items.length ≤ names.length ∧
      (names.zip items).foldlM (fun state entry => make state entry.1 entry.2) initial = some state := by
  refine holds_of_iterate (fun elements : Elements State => ∃ items : List Json,
    ∃ before, names = before ++ elements.names ∧ before.length = items.length ∧
      (before.zip items).foldlM (fun state entry => make state entry.1 entry.2) initial = some elements.state)
    (fun state => ∃ items : List Json, items.length ≤ names.length ∧
      (names.zip items).foldlM (fun state entry => make state entry.1 entry.2) initial = some state)
    ?_ ?_ ⟨[], [], rfl, rfl, rfl⟩ found
  · intro elements input next rest ⟨items, before, same, long, made⟩ taken
    obtain same | ⟨element, state, start, next, read, again⟩ := elementStep_cases taken
    · cases same
    · cases again
      split at next
      · cases next
      · next name more rest =>
        cases next
        obtain ⟨next, field, rfl⟩ := map_eq_ok read
        obtain ⟨json, one, -⟩ := makes _ _ field
        refine ⟨items ++ [json], before ++ [name], by simp [same, rest], by simp [long], ?_⟩
        rw [List.zip_append long]
        exact foldlM_concat made one
  · intro elements input value rest ⟨items, before, same, long, made⟩ taken
    obtain done | ⟨_, _, _, _, _, again⟩ := elementStep_cases taken
    · cases done
      refine ⟨items, by simp [same, long], ?_⟩
      have zipped : names.zip items = before.zip items := by
        rw [same, ← List.append_nil items, List.zip_append long]
        simp
      rwa [zipped]
    · cases again

theorem Makes.record (makes : ∀ state name, Makes (field state name) (make state name)) :
    Makes (Reader.record names field initial) fun json => (Shape.fields? names json).bind fun fields =>
      fields.foldlM (fun state entry => make state entry.1 entry.2) initial := by
  refine .of_ne_null fun input value rest found => ?_
  rcases record_cases found with ⟨start, found⟩ | found
  · obtain ⟨items, short, made⟩ := exists_of_elements makes found
    exact ⟨.array items, by simp, by simp [Shape.fields?, short, made]⟩
  · obtain ⟨written, distinct, made⟩ := exists_of_object makes found
    exact ⟨.object written, by simp, by simp [Shape.fields?, distinct, made]⟩

end Read

theorem Shape.makes (shape : Shape Value) : Makes shape.reader shape.ofJson? := by
  induction shape with
  | anything =>
    intro input value rest found
    obtain ⟨first, after, token⟩ := exists_token_of_skipValue found
    by_cases letter : first = 'n'
    · exact ⟨.null, rfl, fun _ => ⟨after, letter ▸ token⟩⟩
    · exact ⟨.number 0, rfl, nofun⟩
  | text => exact .of_ne_null fun _ value _ _ => ⟨.text value, by simp, rfl⟩
  | natural32 =>
    exact .of_ne_null fun _ value _ found => ⟨.number value, by simp, if_pos (lt_of_natural32 found)⟩
  | nullable shape ih =>
    intro input value? rest found
    obtain ⟨first, after, token, ⟨rfl, rfl⟩ | ⟨present, value, rfl, read⟩⟩ := nullable_cases found
    · exact ⟨.null, rfl, fun _ => ⟨after, token⟩⟩
    · obtain ⟨json, made, null⟩ := ih read
      have notNull : json ≠ .null := by
        intro missing
        obtain ⟨_, other⟩ := null missing
        rw [token] at other
        cases other
        exact present rfl
      exact ⟨json, by rw [ofJson?_nullable shape notNull, made]; rfl, null⟩
  | array item ih =>
    refine .of_ne_null fun _ values _ found => ?_
    obtain ⟨items, made⟩ := exists_of_array ih found
    exact ⟨.array items, by simp, made⟩
  | variant ofName? =>
    refine .of_ne_null fun _ value _ found => ?_
    obtain ⟨name, known⟩ := variant_eq_ok found
    exact ⟨.text name, by simp, known⟩
  | object entry initial ih =>
    refine .of_ne_null fun _ state _ found => ?_
    obtain ⟨written, -, made⟩ := exists_of_object ih found
    exact ⟨.object written, by simp, made⟩
  | record names field initial ih => exact .record ih
  | refine change shape ih =>
    intro input value rest found
    obtain ⟨first, read, stands⟩ := refine_eq_ok found
    obtain ⟨json, made, null⟩ := ih read
    exact ⟨json, by simp [ofJson?, made, stands], null⟩

theorem Format.standard_faithful : Format.standard.Faithful where
  made_of_read {_ shape _ _} found := by
    obtain ⟨rest, read⟩ := readAll_eq_ok found
    obtain ⟨json, made, -⟩ := shape.makes read
    exact ⟨json, made⟩
  read_write _ made := readAll_encode (Shape.reads made)

end H8.Json
