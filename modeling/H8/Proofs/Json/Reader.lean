import H8.Json.Reader

/-! What the readers do with any text.

A loop is followed step by step: as long as every step takes a byte, the fuel
lasts until the step that ends the loop. Conversely, what is read from any text
tells what was done on the way, one inversion for each reader, and a loop ends
in what its steps keep.
-/

set_option autoImplicit false

namespace H8.Json.Reader

variable {State Value Changed : Type}

theorem bind_eq_ok {Error First Second : Type} {first : Except Error First}
    {next : First → Except Error Second} {result : Second}
    (found : (first >>= next) = .ok result) : ∃ value, first = .ok value ∧ next value = .ok result := by
  cases first with
  | error _ => cases found
  | ok value => exact ⟨value, rfl, found⟩

theorem ok_bind {Error First Second : Type} (value : First) (next : First → Except Error Second) :
    (.ok value >>= next) = next value := rfl

@[simp]
theorem toNat_toChar (byte : UInt8) : (toChar byte).toNat = byte.toNat := by
  have small : byte.toNat < 256 := byte.toNat_lt
  have valid : byte.toNat.isValidChar := Or.inl (by omega)
  rw [toChar, Char.ofNat, dif_pos valid]
  rfl

theorem toChar_eq_iff {byte : UInt8} {c : Char} : toChar byte = c ↔ byte.toNat = c.toNat := by
  rw [← toNat_toChar, Char.toNat_inj]

/-! ### Following a loop -/

/-- A loop gets from one state and text to others, and each step on the way
takes a byte. -/
inductive Steps (step : State → Reader (Loop State Value)) : State → Bytes → State → Bytes → Prop where
  | here (state : State) (input : Bytes) : Steps step state input state input
  | again {state next last : State} {input rest final : Bytes} :
    step state input = .ok (.again next, rest) → rest.length < input.length →
      Steps step next rest last final → Steps step state input last final

theorem length_lt_cons_append (byte : UInt8) (taken rest : Bytes) :
    rest.length < (byte :: (taken ++ rest)).length := by
  rw [List.length_cons, List.length_append]
  omega

section Loops

variable {step : State → Reader (Loop State Value)} {state middle last : State}
  {input between final rest : Bytes} {value : Value}

theorem Steps.trans (first : Steps step state input middle between)
    (second : Steps step middle between last final) : Steps step state input last final := by
  induction first with
  | here => exact second
  | again taken shorter _ ih => exact .again taken shorter (ih second)

theorem repeatStep_of_steps {fuel : Nat} (steps : Steps step state input last final)
    (done : step last final = .ok (.done value, rest)) (enough : input.length < fuel) :
    repeatStep step fuel state input = .ok (value, rest) := by
  -- The text gets shorter with each step, and the fuel stays ahead of its length.
  induction steps generalizing fuel with
  | here =>
    obtain ⟨fuel, rfl⟩ : ∃ more, fuel = more + 1 := ⟨fuel - 1, by omega⟩
    simp only [repeatStep, done]
  | again taken shorter _ ih =>
    obtain ⟨fuel, rfl⟩ : ∃ more, fuel = more + 1 := ⟨fuel - 1, by omega⟩
    simp only [repeatStep, taken]
    exact ih done (by omega)

theorem iterate_of_steps (steps : Steps step state input last final)
    (done : step last final = .ok (.done value, rest)) :
    iterate step state input = .ok (value, rest) :=
  repeatStep_of_steps steps done (by omega)

end Loops

/-- A loop whose steps keep an invariant ends with a value that a last step gives
under the invariant. -/
theorem holds_of_iterate {step : State → Reader (Loop State Value)} (Inv : State → Prop)
    (Holds : Value → Prop)
    (keeps : ∀ {state input next rest}, Inv state → step state input = .ok (.again next, rest) → Inv next)
    (ends : ∀ {state input value rest}, Inv state → step state input = .ok (.done value, rest) → Holds value)
    {state : State} {input rest : Bytes} {value : Value} (start : Inv state)
    (found : iterate step state input = .ok (value, rest)) : Holds value := by
  unfold iterate at found
  generalize input.length + 1 = fuel at found
  induction fuel generalizing state input with
  | zero => cases found
  | succ fuel ih =>
    simp only [repeatStep] at found
    split at found
    · cases found
    · next taken =>
      cases found
      exact ends start taken
    · next taken => exact ih (keeps start taken) found

/-! ### What a reader did -/

section Scalars

variable {reader : Reader Value} {input rest : Bytes} {changed : Changed}

theorem map_eq_ok {change : Value → Changed} (found : map change reader input = .ok (changed, rest)) :
    ∃ value, reader input = .ok (value, rest) ∧ change value = changed := by
  obtain ⟨⟨value, _⟩, read, same⟩ := bind_eq_ok found
  cases same
  exact ⟨value, read, rfl⟩

theorem refine_eq_ok {change : Value → Option Changed}
    (found : Reader.refine change reader input = .ok (changed, rest)) :
    ∃ value, reader input = .ok (value, rest) ∧ change value = some changed := by
  obtain ⟨⟨value, _⟩, read, found⟩ := bind_eq_ok found
  dsimp only at found
  split at found
  · next same =>
    cases found
    exact ⟨value, read, same⟩
  · cases found

theorem lt_of_natural32 {value : Nat} (found : natural32 input = .ok (value, rest)) :
    value < UInt32.size := by
  obtain ⟨⟨first, _⟩, _, found⟩ := bind_eq_ok found
  dsimp only at found
  split at found
  · obtain ⟨⟨value?, after⟩, _, found⟩ := bind_eq_ok found
    dsimp only at found
    split at found
    · next kept =>
      cases found
      simpa using (Option.filter_eq_some_iff.mp kept).2
    · cases found
  · cases found

theorem nullable_cases {value? : Option Value} (found : nullable reader input = .ok (value?, rest)) :
    ∃ first after, nextToken input = .ok (first, after) ∧ (first = 'n' ∧ value? = none ∨
      first ≠ 'n' ∧ ∃ value, value? = some value ∧ reader input = .ok (value, rest)) := by
  obtain ⟨⟨first, after⟩, token, found⟩ := bind_eq_ok found
  refine ⟨first, after, token, ?_⟩
  dsimp only at found
  split at found
  · next missing =>
    obtain ⟨_, _, same⟩ := map_eq_ok found
    exact .inl ⟨missing, same.symm⟩
  · next present =>
    obtain ⟨value, read, same⟩ := map_eq_ok found
    exact .inr ⟨present, value, same.symm, read⟩

theorem exists_token_of_skipValue (found : skipValue input = .ok ((), rest)) :
    ∃ first after, nextToken input = .ok (first, after) := by
  obtain ⟨_, started, _⟩ := bind_eq_ok found
  obtain ⟨⟨first, after⟩, token, _⟩ := bind_eq_ok started
  exact ⟨first, after, token⟩

theorem variant_eq_ok {ofName? : String → Option Value} {value : Value}
    (found : variant ofName? input = .ok (value, rest)) : ∃ name, ofName? name = some value := by
  obtain ⟨⟨first, after⟩, _, found⟩ := bind_eq_ok found
  dsimp only at found
  split at found
  · obtain ⟨⟨named, _⟩, read, found⟩ := bind_eq_ok found
    obtain ⟨name, _, known⟩ := refine_eq_ok read
    obtain ⟨⟨colon, _⟩, _, found⟩ := bind_eq_ok found
    dsimp only at found
    split at found
    · cases found
    · obtain ⟨_, _, found⟩ := bind_eq_ok found
      obtain ⟨⟨close, _⟩, _, found⟩ := bind_eq_ok found
      dsimp only at found
      split at found
      · cases found
        exact ⟨name, known⟩
      · cases found
  · obtain ⟨name, _, known⟩ := refine_eq_ok found
    exact ⟨name, known⟩

end Scalars

section Compounds

variable {isFirst : Bool} {element? : Option (Reader State)} {result value : Value}
  {isDistinct : String → Bool} {field : State → String → Reader State}
  {fields next : Fields State} {initial state : State} {names : List String} {input rest : Bytes}

theorem elementStep_cases {loop : Loop State Value}
    (found : elementStep isFirst element? result input = .ok (loop, rest)) :
    loop = .done result ∨ ∃ element state start,
      element? = some element ∧ element start = .ok (state, rest) ∧ loop = .again state := by
  obtain ⟨⟨first, after⟩, _, found⟩ := bind_eq_ok found
  dsimp only at found
  split at found
  · cases found
    exact .inl rfl
  · cases element? with
    | none => cases found
    | some element =>
      have more {start : Bytes} (found : map .again element start = .ok (loop, rest)) :
          ∃ read state start, some element = some read ∧ read start = .ok (state, rest) ∧
            loop = .again state := by
        obtain ⟨state, read, same⟩ := map_eq_ok found
        exact ⟨element, state, start, rfl, read, same.symm⟩
      dsimp only at found
      split at found
      · exact .inr (more found)
      · split at found
        · obtain ⟨⟨second, _⟩, _, found⟩ := bind_eq_ok found
          dsimp only at found
          split at found
          · cases found
          · exact .inr (more found)
        · cases found

theorem nextField_eq_ok (found : nextField isDistinct field fields input = .ok (next, rest)) :
    ∃ name state start, (isDistinct name && fields.names.contains name) = false ∧
      field fields.state name start = .ok (state, rest) ∧ next = ⟨name :: fields.names, state⟩ := by
  obtain ⟨⟨quote, _⟩, _, found⟩ := bind_eq_ok found
  dsimp only at found
  split at found
  · cases found
  · obtain ⟨⟨name, _⟩, _, found⟩ := bind_eq_ok found
    dsimp only at found
    split at found
    · cases found
    · next fresh =>
      obtain ⟨⟨colon, start⟩, _, found⟩ := bind_eq_ok found
      dsimp only at found
      split at found
      · cases found
      · obtain ⟨⟨state, _⟩, read, found⟩ := bind_eq_ok found
        cases found
        exact ⟨name, state, start, Bool.eq_false_iff.mpr fresh, read, rfl⟩

theorem objectStep_cases {loop : Loop (Fields State) State}
    (found : objectStep isDistinct field fields input = .ok (loop, rest)) :
    loop = .done fields.state ∨ ∃ name state start,
      (isDistinct name && fields.names.contains name) = false ∧
        field fields.state name start = .ok (state, rest) ∧ loop = .again ⟨name :: fields.names, state⟩ := by
  obtain ⟨⟨first, after⟩, _, found⟩ := bind_eq_ok found
  have more {start : Bytes} (found : map .again (nextField isDistinct field fields) start = .ok (loop, rest)) :
      ∃ name state start, (isDistinct name && fields.names.contains name) = false ∧
        field fields.state name start = .ok (state, rest) ∧ loop = .again ⟨name :: fields.names, state⟩ := by
    obtain ⟨next, taken, same⟩ := map_eq_ok found
    obtain ⟨name, state, start, fresh, read, rfl⟩ := nextField_eq_ok taken
    exact ⟨name, state, start, fresh, read, same.symm⟩
  dsimp only at found
  split at found
  · cases found
    exact .inl rfl
  · split at found
    · exact .inr (more found)
    · split at found
      · exact .inr (more found)
      · cases found

theorem array_eq_ok {item : Reader Value} {values : List Value}
    (found : array item input = .ok (values, rest)) :
    ∃ start, iterate (arrayStep item) #[] start = .ok (values, rest) := by
  obtain ⟨⟨first, after⟩, _, found⟩ := bind_eq_ok found
  dsimp only at found
  split at found
  · exact ⟨after, found⟩
  · cases found

theorem object_eq_ok (found : object isDistinct field initial input = .ok (state, rest)) :
    ∃ start, iterate (objectStep isDistinct field) ⟨[], initial⟩ start = .ok (state, rest) := by
  obtain ⟨⟨first, after⟩, _, found⟩ := bind_eq_ok found
  dsimp only at found
  split at found
  · exact ⟨after, found⟩
  · cases found

theorem record_cases (found : record names field initial input = .ok (state, rest)) :
    (∃ start, iterate (recordStep field) ⟨true, names, initial⟩ start = .ok (state, rest)) ∨
      object names.contains field initial input = .ok (state, rest) := by
  obtain ⟨⟨first, after⟩, _, found⟩ := bind_eq_ok found
  dsimp only at found
  split at found
  · exact .inl ⟨after, found⟩
  · exact .inr found

theorem readAll_eq_ok {reader : Reader Value} (found : readAll reader input = .ok value) :
    ∃ rest, reader input = .ok (value, rest) := by
  obtain ⟨⟨_, rest⟩, read, found⟩ := bind_eq_ok found
  dsimp only at found
  split at found
  · cases found
    exact ⟨rest, read⟩
  · cases found

end Compounds

end H8.Json.Reader
