import H8.Json.Shape
import Mathlib.Data.List.Basic

/-! What shapes make of JSON values. -/

set_option autoImplicit false

namespace H8.Json.Shape

variable {State First Value : Type} {shape : Shape First} {encode : Value → Json}

theorem ofJson?_map (change : First → Value) (json : Json) :
    (map change shape).ofJson? json = (shape.ofJson? json).map change := by
  change (shape.ofJson? json).bind (fun value => some (change value)) = _
  cases shape.ofJson? json <;> rfl

theorem ofJson?_natural32 {value : Nat} (small : value < UInt32.size) :
    natural32.ofJson? (.number value) = some value := if_pos small

theorem ofJson?_word32 (value : UInt32) : word32.ofJson? (.number value.toNat) = some value := by
  rw [word32, ofJson?_map, ofJson?_natural32 value.toNat_lt, Option.map_some, UInt32.ofNat_toNat]

theorem ofJson?_nullable (shape : Shape Value) {json : Json} (present : json ≠ .null) :
    (nullable shape).ofJson? json = (shape.ofJson? json).map some := by
  cases json with
  | null => exact absurd rfl present
  | number _ | text _ | array _ | object _ => rfl

theorem ofJson?_ofOption {shape : Shape Value} {value? : Option Value}
    (present : ∀ value ∈ value?, encode value ≠ .null)
    (made : ∀ value ∈ value?, shape.ofJson? (encode value) = some value) :
    (nullable shape).ofJson? (.ofOption encode value?) = some value? := by
  cases value? with
  | none => rfl
  | some value =>
    rw [ofOption, ofJson?_nullable shape (present value rfl), made value rfl]
    rfl

theorem ofJson?_texts (texts : List String) : (array text).ofJson? (.array (texts.map .text)) = some texts := by
  change (texts.map Json.text).mapM text.ofJson? = some texts
  induction texts with
  | nil => rfl
  | cons first rest ih =>
    rw [List.map_cons, List.mapM_cons, ih]
    rfl

theorem ofJson?_text? (text? : Option String) :
    (nullable text).ofJson? (.ofOption .text text?) = some text? :=
  ofJson?_ofOption (by simp) fun _ _ => rfl

def Yields (shape : Shape Value) (Holds : Value → Prop) : Prop :=
  ∀ ⦃json value⦄, shape.ofJson? json = some value → Holds value

theorem Yields.map {change : First → Value} {Before : First → Prop} {After : Value → Prop}
    (yields : shape.Yields Before) (carries : ∀ value, Before value → After (change value)) :
    (map change shape).Yields After := by
  intro json value made
  rw [ofJson?_map] at made
  obtain ⟨first, before, rfl⟩ := Option.map_eq_some_iff.mp made
  exact carries first (yields before)

theorem map_yields {change : First → Value} {After : Value → Prop} (always : ∀ value, After (change value)) :
    (map change shape).Yields After := by
  have any : shape.Yields fun _ => True := fun _ _ _ => trivial
  exact any.map fun value _ => always value

theorem nullable_natural32_yields :
    (nullable natural32).Yields fun value? => ∀ value ∈ value?, value < UInt32.size := by
  rintro json value? made value rfl
  cases json with
  | number number =>
    obtain ⟨inner, made, same⟩ := Option.map_eq_some_iff.mp made
    obtain ⟨small, number⟩ := Option.ite_none_right_eq_some.mp made
    cases number
    cases same
    exact small
  | null | text _ | array _ | object _ => cases made

theorem foldlM_cons_eq_some {make : State → String → Shape State} {name : String} {json : Json}
    {fields : List (String × Json)} {state next last : State} (one : (make state name).ofJson? json = some next)
    (later : fields.foldlM (fun state entry => (make state entry.1).ofJson? entry.2) next = some last) :
    ((name, json) :: fields).foldlM (fun state entry => (make state entry.1).ofJson? entry.2) state =
      some last := by
  rw [List.foldlM_cons]
  exact Option.bind_eq_some_iff.mpr ⟨next, one, later⟩

theorem ofJson?_record_object {names : List String} {field : State → String → Shape State} {initial last : State}
    {fields : List (String × Json)} (distinct : ((fields.map Prod.fst).filter names.contains).Nodup)
    (made : fields.foldlM (fun state entry => (field state entry.1).ofJson? entry.2) initial = some last) :
    (record names field initial).ofJson? (.object fields) = some last :=
  Option.bind_eq_some_iff.mpr ⟨fields, if_pos distinct, made⟩

theorem foldlM_yields {make : State → String → Shape State} {Inv : State → Prop}
    (keeps : ∀ state name, Inv state → (make state name).Yields Inv) {fields : List (String × Json)}
    {initial last : State} (start : Inv initial)
    (made : fields.foldlM (fun state entry => (make state entry.1).ofJson? entry.2) initial = some last) :
    Inv last := by
  induction fields generalizing initial with
  | nil =>
    cases made
    exact start
  | cons entry fields ih =>
    rw [List.foldlM_cons] at made
    obtain ⟨next, one, made⟩ := Option.bind_eq_some_iff.mp made
    exact ih (keeps _ _ start one) made

theorem object_yields {entry : State → String → Shape State} {Inv : State → Prop}
    (keeps : ∀ state name, Inv state → (entry state name).Yields Inv) {initial : State} (start : Inv initial) :
    (object entry initial).Yields Inv := by
  intro json last made
  cases json with
  | object fields => exact foldlM_yields keeps start made
  | null | number _ | text _ | array _ => cases made

theorem record_yields {names : List String} {field : State → String → Shape State} {Inv : State → Prop}
    (keeps : ∀ state name, Inv state → (field state name).Yields Inv) {initial : State} (start : Inv initial) :
    (record names field initial).Yields Inv := by
  intro json last made
  obtain ⟨fields, -, made⟩ := Option.bind_eq_some_iff.mp made
  exact foldlM_yields keeps start made

end H8.Json.Shape
