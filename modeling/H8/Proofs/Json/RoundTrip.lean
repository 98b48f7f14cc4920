import H8.Proofs.Json.Writer

/-! Values are read back from the text that they are written as.

The text of a value may be followed by more text, as long as a number in front
of it cannot go on there. Under that condition each reader gives the value
back and leaves the text that follows, so that readers of parts make a reader
of the whole.
-/

set_option autoImplicit false

namespace H8.Json

open Reader
open Text (asciiBytes bytes bytes_eq flatMap_utf8EncodeChar_of_ascii fromUTF8?_bytes le_of_mem_utf8EncodeChar
  utf8EncodeChar_of_ascii)

variable {State Value Changed : Type}

/-- A text that does not go on a number: it is over, or a comma or a closing
bracket comes next. -/
def Delimits : Bytes → Prop
  | [] => True
  | byte :: _ => byte = 0x2C ∨ byte = 0x5D ∨ byte = 0x7D

/-- A reader gives a value back from the text of a JSON value, whatever
delimits that text. -/
def Reads (reader : Reader Value) (json : Json) (value : Value) : Prop :=
  ∀ ⦃rest⦄, Delimits rest → reader (json.encode ++ rest) = .ok (value, rest)

theorem skipBlanks_cons {byte : UInt8} {rest : Bytes} (plain : isBlank byte = false) :
    skipBlanks (byte :: rest) = byte :: rest := by
  simp [skipBlanks, plain]

theorem nextToken_cons {byte : UInt8} {rest : Bytes} (plain : isBlank byte = false) :
    nextToken (byte :: rest) = .ok (toChar byte, rest) := by
  simp only [nextToken, skipBlanks_cons plain, nextChar]

theorem delimits_commas {Part : Type} (encode : Part → Bytes) (parts : List Part) {rest : Bytes}
    (delimits : Delimits rest) : Delimits (parts.flatMap (fun part => 0x2C :: encode part) ++ rest) := by
  cases parts with
  | nil => exact delimits
  | cons _ _ => exact .inl rfl

/-! ### Texts -/

theorem plainEscape?_of_shortEscape? {c letter : Char} (escape : shortEscape? c = some letter) :
    letter.toNat < 128 ∧ letter ≠ 'u' ∧ plainEscape? letter = some c := by
  unfold shortEscape? at escape
  repeat
    split at escape
    · next same =>
      cases escape
      subst same
      decide
  cases escape

theorem nextChar_cons_of_ascii {c : Char} (ascii : c.toNat < 128) (rest : Bytes) :
    nextChar (UInt8.ofNat c.toNat :: rest) = .ok (c, rest) := by
  simp only [nextChar, toChar_ofNat_of_ascii ascii]

theorem stringStep_escape (done : Array UInt8) {c : Char} {input rest : Bytes}
    (read : escapeBody input = .ok (c, rest)) :
    stringStep done (0x5C :: input) = .ok (.again (done ++ (String.utf8EncodeChar c).toArray), rest) := by
  have quote : toChar 0x5C ≠ '"' := by decide
  have backslash : toChar 0x5C = '\\' := by decide
  rw [stringStep, if_neg quote, if_pos backslash, read]
  rfl

/-- A byte that stands for itself between quotes. -/
def IsPlain (byte : UInt8) : Prop := toChar byte ≠ '"' ∧ toChar byte ≠ '\\' ∧ ¬ byte < 0x20

theorem steps_plain {bytes : Bytes} (plain : ∀ byte ∈ bytes, IsPlain byte) (done : Array UInt8) (rest : Bytes) :
    Steps stringStep done (bytes ++ rest) (done ++ bytes.toArray) rest := by
  induction bytes generalizing done with
  | nil => simpa using Steps.here done rest
  | cons byte bytes ih =>
    rw [List.forall_mem_cons] at plain
    obtain ⟨⟨quote, backslash, visible⟩, later⟩ := plain
    have step : stringStep done (byte :: (bytes ++ rest)) = .ok (.again (done.push byte), bytes ++ rest) := by
      rw [stringStep, if_neg quote, if_neg backslash, if_neg visible]
    refine .again step (by simp) ?_
    simpa using ih later (done.push byte)

theorem escapeBody_letter {c letter : Char} (escape : shortEscape? c = some letter) (rest : Bytes) :
    escapeBody (UInt8.ofNat letter.toNat :: rest) = .ok (c, rest) := by
  obtain ⟨ascii, notCode, plain⟩ := plainEscape?_of_shortEscape? escape
  simp only [escapeBody, nextChar_cons_of_ascii ascii, ok_bind, if_neg notCode, plain]

theorem digitChar_ascii {digit : Nat} (small : digit < 16) : (Nat.digitChar digit).toNat < 128 := by
  revert digit
  decide

/-- Control characters have codes of two digits. -/
theorem hexCode_code {c : Char} (control : c.toNat < 0x20) (rest : Bytes) :
    hexCode (asciiBytes ['0', '0', Nat.digitChar (c.toNat / 16), Nat.digitChar (c.toNat % 16)] ++ rest) =
      .ok (c.toNat, rest) := by
  have digits : ∀ code < 0x20,
      Text.digitsValue? 16 ['0', '0', Nat.digitChar (code / 16), Nat.digitChar (code % 16)] = some code := by
    decide
  have zero : '0'.toNat < 128 := by decide
  have first : (Nat.digitChar (c.toNat / 16)).toNat < 128 := digitChar_ascii (by omega)
  have second : (Nat.digitChar (c.toNat % 16)).toNat < 128 := digitChar_ascii (by omega)
  simp only [hexCode, asciiBytes, List.map_cons, List.map_nil, List.cons_append, List.nil_append,
    nextChar_cons_of_ascii zero, nextChar_cons_of_ascii first, nextChar_cons_of_ascii second, ok_bind,
    digits c.toNat control]

theorem escapeBody_code {c : Char} (control : c.toNat < 0x20) (rest : Bytes) :
    escapeBody (asciiBytes ['u', '0', '0', Nat.digitChar (c.toNat / 16), Nat.digitChar (c.toNat % 16)] ++
      rest) = .ok (c, rest) := by
  have mark : 'u'.toNat < 128 := by decide
  have notLow : ¬ (0xDC00 ≤ c.toNat && c.toNat ≤ 0xDFFF) = true := by
    rw [Bool.and_eq_true, decide_eq_true_eq]
    omega
  have notHigh : ¬ (0xD800 ≤ c.toNat && c.toNat ≤ 0xDBFF) = true := by
    rw [Bool.and_eq_true, decide_eq_true_eq]
    omega
  have code := hexCode_code control rest
  rw [asciiBytes] at code ⊢
  simp only [escapeBody, codeEscape, List.map_cons, List.cons_append, nextChar_cons_of_ascii mark, ok_bind,
    ite_true] at code ⊢
  simp only [code, ok_bind, if_neg notLow, if_neg notHigh, Char.ofNat_toNat]

theorem plain_of_mem_utf8EncodeChar {c : Char} (noEscape : shortEscape? c = none) (visible : ¬ c.toNat < 0x20)
    {byte : UInt8} (member : byte ∈ String.utf8EncodeChar c) : IsPlain byte := by
  have small : (0x20 : UInt8).toNat = 32 := rfl
  by_cases ascii : c.toNat < 128
  · rw [utf8EncodeChar_of_ascii ascii, List.mem_singleton] at member
    have char : toChar byte = c := member ▸ toChar_ofNat_of_ascii ascii
    have code := toNat_toChar byte
    rw [IsPlain, char]
    rw [char] at code
    refine ⟨?_, ?_, ?_⟩
    · rintro rfl
      exact absurd noEscape (by decide)
    · rintro rfl
      exact absurd noEscape (by decide)
    · rw [UInt8.lt_iff_toNat_lt]
      omega
  · have wide := le_of_mem_utf8EncodeChar (Nat.le_of_not_lt ascii) member
    have quote : '"'.toNat = 34 := rfl
    have backslash : '\\'.toNat = 92 := rfl
    simp only [IsPlain, ne_eq, toChar_eq_iff, UInt8.lt_iff_toNat_lt]
    omega

/-- The bytes between quotes that stand for a character. -/
inductive StandsFor (c : Char) : Bytes → Prop where
  | letter {letter : Char} : shortEscape? c = some letter → StandsFor c [0x5C, UInt8.ofNat letter.toNat]
  | code : c.toNat < 0x20 →
    StandsFor c (0x5C :: asciiBytes ['u', '0', '0', Nat.digitChar (c.toNat / 16), Nat.digitChar (c.toNat % 16)])
  | plain : (∀ byte ∈ String.utf8EncodeChar c, IsPlain byte) → StandsFor c (String.utf8EncodeChar c)

theorem standsFor_escapeChar (c : Char) : StandsFor c ((escapeChar c).flatMap String.utf8EncodeChar) := by
  unfold escapeChar
  split
  · next letter escape =>
    have ascii := (plainEscape?_of_shortEscape? escape).1
    rw [flatMap_utf8EncodeChar_of_ascii (by simp [ascii])]
    exact .letter escape
  · next noEscape =>
    split
    · next control =>
      have first : (Nat.digitChar (c.toNat / 16)).toNat < 128 := digitChar_ascii (by omega)
      have second : (Nat.digitChar (c.toNat % 16)).toNat < 128 := digitChar_ascii (by omega)
      rw [flatMap_utf8EncodeChar_of_ascii (by simp [first, second])]
      exact .code control
    · next visible =>
      rw [List.flatMap_singleton]
      exact .plain fun _ => plain_of_mem_utf8EncodeChar noEscape visible

/-- A character is read back in one step from an escape, and otherwise byte by
byte. -/
theorem steps_of_standsFor {c : Char} {bytes : Bytes} (stands : StandsFor c bytes) (done : Array UInt8)
    (rest : Bytes) :
    Steps stringStep done (bytes ++ rest) (done ++ (String.utf8EncodeChar c).toArray) rest := by
  cases stands with
  | letter escape =>
    exact .again (stringStep_escape done (escapeBody_letter escape rest)) (length_lt_cons_append _ _ _) (.here _ _)
  | code control =>
    exact .again (stringStep_escape done (escapeBody_code control rest)) (length_lt_cons_append _ _ _) (.here _ _)
  | plain plain => exact steps_plain plain done rest

theorem steps_escaped (text : List Char) (done : Array UInt8) (rest : Bytes) :
    Steps stringStep done (escaped text ++ rest)
      (done ++ (text.flatMap String.utf8EncodeChar).toArray) rest := by
  induction text generalizing done with
  | nil => simpa [escaped] using Steps.here done rest
  | cons c text ih =>
    have first := steps_of_standsFor (standsFor_escapeChar c) done (escaped text ++ rest)
    have later := ih (done ++ (String.utf8EncodeChar c).toArray)
    simpa [escaped] using first.trans later

theorem stringBody_escaped (text : String) (rest : Bytes) :
    stringBody (escaped text.toList ++ 0x22 :: rest) = .ok (text, rest) := by
  refine iterate_of_steps (steps_escaped text.toList #[] (0x22 :: rest)) ?_
  have quote : toChar 0x22 = '"' := by decide
  rw [stringStep, if_pos quote, Array.empty_append, ← bytes_eq, fromUTF8?_bytes]

/-- The quotes of a text delimit it, whatever follows. -/
theorem text_encode (text : String) (rest : Bytes) :
    Reader.text (encode (.text text) ++ rest) = .ok (text, rest) := by
  have quote : toChar 0x22 = '"' := by decide
  rw [encode_text, List.cons_append, List.cons_append, List.append_assoc, List.singleton_append]
  simp only [Reader.text, nextToken_cons (by decide : isBlank 0x22 = false), ok_bind, if_pos quote]
  exact stringBody_escaped text rest

theorem Reads.text (text : String) : Reads Reader.text (.text text) text :=
  fun rest _ => text_encode text rest

/-! ### Other scalars -/

section Scalars

variable {reader : Reader Value} {json : Json} {value : Value}

theorem Reads.map (reads : Reads reader json value) (change : Value → Changed) :
    Reads (Reader.map change reader) json (change value) := by
  intro rest delimits
  rw [Reader.map, reads delimits]
  rfl

theorem Reads.refine {change : Value → Option Changed} {changed : Changed} (reads : Reads reader json value)
    (stands : change value = some changed) : Reads (Reader.refine change reader) json changed := by
  intro rest delimits
  simp only [Reader.refine, reads delimits, ok_bind, stands]

theorem null_encode (rest : Bytes) : Reader.null (encode .null ++ rest) = .ok ((), rest) := rfl

theorem Reads.null : Reads (nullable reader) .null none := by
  intro rest _
  rfl

theorem Reads.nullable (present : json ≠ .null) (reads : Reads reader json value) :
    Reads (nullable reader) json (some value) := by
  intro rest delimits
  obtain ⟨first, after, same, opens⟩ := exists_opens json
  have notNull : toChar first ≠ 'n' := fun letter => present (opens.null_of letter)
  have read := reads.map some delimits
  rw [same, List.cons_append] at read ⊢
  rw [Reader.nullable, nextToken_cons opens.not_blank]
  simp only [ok_bind, if_neg notNull, read]

theorem digits_decimal (value : Nat) {rest : Bytes} (delimits : Delimits rest) :
    digits (asciiBytes (Text.decimal value).toList ++ rest) = ((Text.decimal value).toList, rest) := by
  have char {c : Char} (member : c ∈ (Text.decimal value).toList) : toChar (UInt8.ofNat c.toNat) = c :=
    toChar_ofNat_of_ascii (ascii_of_mem_decimal member)
  have isDigit : ∀ byte ∈ asciiBytes (Text.decimal value).toList, (toChar byte).isDigit = true := by
    intro byte member
    obtain ⟨c, inside, rfl⟩ := List.mem_map.mp member
    rw [char inside]
    exact Text.isDigit_of_mem_decimal inside
  have back : (asciiBytes (Text.decimal value).toList).map toChar = (Text.decimal value).toList := by
    rw [asciiBytes, List.map_map]
    exact (List.map_congr_left fun _ => char).trans (List.map_id _)
  have stops : rest.takeWhile (fun byte => (toChar byte).isDigit) = [] ∧
      rest.dropWhile (fun byte => (toChar byte).isDigit) = rest := by
    cases rest with
    | nil => exact ⟨rfl, rfl⟩
    | cons byte rest => rcases delimits with rfl | rfl | rfl <;> exact ⟨rfl, rfl⟩
  rw [digits, List.takeWhile_append_of_pos isDigit, List.dropWhile_append_of_pos isDigit, stops.1, stops.2,
    List.append_nil, back]

theorem numberTail_of_delimits (atEnd : ReadError) {rest : Bytes} (delimits : Delimits rest) :
    numberTail atEnd rest = .ok (false, rest) := by
  cases rest with
  | nil => rfl
  | cons byte rest => rcases delimits with rfl | rfl | rfl <;> rfl

theorem unsignedNumber_decimal (atEnd : ReadError) (value : Nat) {rest : Bytes} (delimits : Delimits rest) :
    unsignedNumber atEnd (asciiBytes (Text.decimal value).toList ++ rest) = .ok (some value, rest) := by
  have some_digit : (Text.decimal value).toList ≠ [] := by simp [Text.decimal]
  rw [unsignedNumber, digits_decimal value delimits]
  split
  · next none => exact absurd (Prod.mk.inj none).1 some_digit
  · next _ none => exact absurd (Prod.mk.inj none).1 some_digit
  · next zero => exact absurd (Prod.mk.inj zero).1 (Text.decimal_ne_zero_cons value _ _)
  · next same =>
    cases same
    simp only [numberTail_of_delimits atEnd delimits, ok_bind, Text.digitsValue?_decimal,
      Bool.false_eq_true, if_false]

theorem Reads.natural32 {value : Nat} (small : value < UInt32.size) :
    Reads natural32 (.number value) value := by
  intro rest delimits
  obtain ⟨first, after, same, digit⟩ := encode_number_eq_cons value
  have plain := isBlank_of_isDigit digit
  have read := unsignedNumber_decimal .unexpectedEnd value delimits
  rw [← encode_number] at read
  rw [same, List.cons_append] at read ⊢
  simp only [Reader.natural32, skipBlanks_cons plain, nextToken_cons plain, ok_bind, startsNumber, digit,
    if_true, read, Option.filter_some, decide_eq_true small]

end Scalars

/-! ### Loops over parts -/

section Parts

variable {Part : Type} {step : State → Reader (Loop State Value)} {encode : Part → Bytes}

inductive PartsRead (step : State → Reader (Loop State Value)) (encode : Part → Bytes) :
    State → List Part → State → Prop where
  | nil (state : State) : PartsRead step encode state [] state
  | cons {state next last : State} {part : Part} {parts : List Part} :
    (∀ ⦃rest⦄, Delimits rest → step state (0x2C :: (encode part ++ rest)) = .ok (.again next, rest)) →
      PartsRead step encode next parts last → PartsRead step encode state (part :: parts) last

theorem PartsRead.steps {state last : State} {parts : List Part} {rest : Bytes}
    (read : PartsRead step encode state parts last) (delimits : Delimits rest) :
    Steps step state (parts.flatMap (fun part => 0x2C :: encode part) ++ rest) last rest := by
  induction read with
  | nil state => exact .here state rest
  | cons taken _ ih =>
    rw [List.flatMap_cons, List.cons_append, List.cons_append, List.append_assoc]
    exact .again (taken (delimits_commas encode _ delimits)) (length_lt_cons_append _ _ _) ih

theorem iterate_parts {initial state last : State} {value : Value} {part : Part} {parts : List Part}
    {rest final : Bytes} (delimits : Delimits rest) (nonempty : encode part ≠ [])
    (first : ∀ ⦃rest⦄, Delimits rest → step initial (encode part ++ rest) = .ok (.again state, rest))
    (others : PartsRead step encode state parts last) (close : step last rest = .ok (.done value, final)) :
    iterate step initial (encode part ++ parts.flatMap (fun part => 0x2C :: encode part) ++ rest) =
      .ok (value, final) := by
  rw [List.append_assoc]
  refine iterate_of_steps (.again (first (delimits_commas encode parts delimits)) ?_ (others.steps delimits)) close
  have long := List.length_pos_iff.mpr nonempty
  simp only [List.length_append]
  omega

end Parts

/-! ### Arrays -/

section Arrays

variable {element : Reader State} {json : Json} {state : State} {result : Value} {rest : Bytes}

theorem elementStep_first (reads : Reads element json state) (delimits : Delimits rest) :
    elementStep true (some element) result (json.encode ++ rest) = .ok (.again state, rest) := by
  obtain ⟨first, after, same, opens⟩ := exists_opens json
  have read := reads.map (.again : State → Loop State Value) delimits
  rw [same, List.cons_append] at read ⊢
  rw [elementStep, nextToken_cons opens.not_blank]
  simp only [ok_bind, if_neg opens.not_close, if_true, read]

theorem elementStep_next (reads : Reads element json state) (delimits : Delimits rest) :
    elementStep false (some element) result (0x2C :: (json.encode ++ rest)) = .ok (.again state, rest) := by
  obtain ⟨first, after, same, opens⟩ := exists_opens json
  have read := reads.map (.again : State → Loop State Value) delimits
  have comma : toChar 0x2C = ',' := by decide
  rw [same, List.cons_append] at read ⊢
  rw [elementStep, nextToken_cons (by decide)]
  simp only [ok_bind, comma, nextToken_cons opens.not_blank, if_neg opens.not_close, read]
  rfl

theorem elementStep_close (isFirst : Bool) (element? : Option (Reader State)) (result : Value) (rest : Bytes) :
    elementStep isFirst element? result (0x5D :: rest) = .ok (.done result, rest) := by
  have close : toChar 0x5D = ']' := by decide
  rw [elementStep, nextToken_cons (by decide)]
  simp only [ok_bind, if_pos close]

theorem delimits_bracket (rest : Bytes) : Delimits (0x5D :: rest) := .inr (.inl rfl)

theorem encode_ne_nil (json : Json) : json.encode ≠ [] := by
  obtain ⟨first, rest, same, -⟩ := exists_opens json
  simp [same]

variable {item : Reader Value} {jsons : List Json} {values : List Value}

theorem partsRead_array (read : List.Forall₂ (Reads item) jsons values) (items : Array Value)
    (started : items.isEmpty = false) :
    PartsRead (arrayStep item) Json.encode items jsons (items ++ values.toArray) := by
  induction read generalizing items with
  | nil => simpa using PartsRead.nil items
  | @cons json value jsons values reads _ ih =>
    have same : items.push value ++ values.toArray = items ++ (value :: values).toArray := by simp
    have later := ih (items.push value) (by simp)
    rw [same] at later
    refine .cons (fun rest delimits => ?_) later
    rw [arrayStep, started]
    exact elementStep_next (reads.map items.push) delimits

theorem Reads.array (read : List.Forall₂ (Reads item) jsons values) :
    Reads (Reader.array item) (.array jsons) values := by
  intro rest _
  have bracket : toChar 0x5B = '[' := by decide
  rw [encode_array, List.cons_append, List.cons_append, List.append_assoc, List.singleton_append]
  simp only [Reader.array, nextToken_cons (by decide : isBlank 0x5B = false), ok_bind, if_pos bracket]
  -- The first element has no comma, so it is read apart from the others.
  cases read with
  | nil => exact iterate_of_steps (.here #[] (0x5D :: rest)) (elementStep_close _ _ _ rest)
  | @cons json value jsons values reads others =>
    rw [bytes_writeItems_cons]
    refine iterate_parts (delimits_bracket rest) (encode_ne_nil json) ?_
      (partsRead_array others #[value] rfl) ?_
    · intro rest delimits
      exact elementStep_first (reads.map #[].push) delimits
    · rw [arrayStep, elementStep_close]
      simp

end Arrays

/-! ### Objects and records -/

section Objects

variable {isDistinct : String → Bool} {field : State → String → Reader State} {names : List String}
  {name : String} {initial state next last : State} {json : Json} {written : List (String × Json)}
  {rest : Bytes}

theorem encodeField_append (name : String) (json : Json) (rest : Bytes) : encodeField (name, json) ++ rest =
    0x22 :: (escaped name.toList ++ 0x22 :: 0x3A :: (json.encode ++ rest)) := by
  simp [encodeField, bytes_quoted]

theorem nextField_encodeField (fresh : (isDistinct name && names.contains name) = false)
    (reads : Reads (field state name) json next) (delimits : Delimits rest) :
    nextField isDistinct field ⟨names, state⟩ (encodeField (name, json) ++ rest) =
      .ok (⟨name :: names, next⟩, rest) := by
  have quote : ¬ toChar 0x22 ≠ '"' := by decide
  have colon : ¬ toChar 0x3A ≠ ':' := by decide
  rw [encodeField_append, nextField, nextToken_cons (by decide)]
  simp only [ok_bind, if_neg quote, stringBody_escaped, fresh, Bool.false_eq_true, if_false,
    nextToken_cons (by decide : isBlank 0x3A = false), if_neg colon, reads delimits]

theorem objectStep_first (reads : Reads (field state name) json next) (delimits : Delimits rest) :
    objectStep isDistinct field ⟨[], state⟩ (encodeField (name, json) ++ rest) =
      .ok (.again ⟨[name], next⟩, rest) := by
  have fresh : (isDistinct name && [].contains name) = false := by simp
  have read := nextField_encodeField fresh reads delimits
  rw [encodeField_append] at read ⊢
  rw [objectStep, nextToken_cons (by decide)]
  simp only [ok_bind, Reader.map, read]
  rfl

theorem objectStep_next (started : names.isEmpty = false)
    (fresh : (isDistinct name && names.contains name) = false)
    (reads : Reads (field state name) json next) (delimits : Delimits rest) :
    objectStep isDistinct field ⟨names, state⟩ (0x2C :: (encodeField (name, json) ++ rest)) =
      .ok (.again ⟨name :: names, next⟩, rest) := by
  have read := nextField_encodeField fresh reads delimits
  rw [objectStep, nextToken_cons (by decide)]
  simp only [ok_bind, started, Reader.map, read]
  rfl

theorem objectStep_close (fields : Fields State) (rest : Bytes) :
    objectStep isDistinct field fields (0x7D :: rest) = .ok (.done fields.state, rest) := by
  have close : toChar 0x7D = '\x7d' := by decide
  rw [objectStep, nextToken_cons (by decide)]
  simp only [ok_bind, if_pos close]

theorem delimits_brace (rest : Bytes) : Delimits (0x7D :: rest) := .inr (.inr rfl)

theorem encodeField_ne_nil (field : String × Json) : encodeField field ≠ [] := by
  simp [encodeField]

inductive FieldsRead (field : State → String → Reader State) :
    State → List (String × Json) → State → Prop where
  | nil (state : State) : FieldsRead field state [] state
  | cons {name : String} {state next last : State} {json : Json} {more : List (String × Json)} :
    Reads (field state name) json next → FieldsRead field next more last →
      FieldsRead field state ((name, json) :: more) last

theorem not_fresh_of_nodup {names more : List String}
    (distinct : ((names ++ name :: more).filter isDistinct).Nodup) :
    (isDistinct name && names.contains name) = false := by
  rw [List.filter_append, List.nodup_append] at distinct
  rw [Bool.and_eq_false_imp]
  intro known
  rw [← Bool.not_eq_true, List.contains_iff_mem]
  intro member
  exact distinct.2.2 name (List.mem_filter.mpr ⟨member, known⟩) name
    (List.mem_filter.mpr ⟨List.mem_cons_self, known⟩) rfl

theorem partsRead_object (read : FieldsRead field state written last) (started : names.isEmpty = false)
    (distinct : ((names ++ written.map Prod.fst).filter isDistinct).Nodup) :
    ∃ final, PartsRead (objectStep isDistinct field) encodeField ⟨names, state⟩ written ⟨final, last⟩ := by
  induction read generalizing names with
  | nil state => exact ⟨names, .nil _⟩
  | @cons name _ _ _ _ more reads _ ih =>
    have later : ((name :: names ++ more.map Prod.fst).filter isDistinct).Nodup :=
      ((List.perm_middle.filter isDistinct).nodup_iff).mp distinct
    obtain ⟨final, parts⟩ := ih rfl later
    exact ⟨final, .cons (fun _ => objectStep_next started (not_fresh_of_nodup distinct) reads) parts⟩

theorem Reads.object (read : FieldsRead field initial written last)
    (distinct : ((written.map Prod.fst).filter isDistinct).Nodup) :
    Reads (Reader.object isDistinct field initial) (.object written) last := by
  intro rest _
  have brace : toChar 0x7B = '\x7b' := by decide
  rw [encode_object, List.cons_append, List.cons_append, List.append_assoc, List.singleton_append]
  simp only [Reader.object, nextToken_cons (by decide : isBlank 0x7B = false), ok_bind, if_pos brace]
  cases read with
  | nil => exact iterate_of_steps (.here _ (0x7D :: rest)) (objectStep_close _ rest)
  | @cons name _ _ _ json more reads others =>
    have started : [name].isEmpty = false := rfl
    obtain ⟨final, parts⟩ := partsRead_object others started distinct
    rw [bytes_writeFields_cons]
    exact iterate_parts (delimits_brace rest) (encodeField_ne_nil _) (fun _ => objectStep_first reads) parts
      (objectStep_close _ rest)

theorem Reads.record_object (read : FieldsRead field initial written last)
    (distinct : ((written.map Prod.fst).filter names.contains).Nodup) :
    Reads (Reader.record names field initial) (.object written) last := by
  intro rest delimits
  have reads := Reads.object read distinct delimits
  have brace : toChar 0x7B ≠ '[' := by decide
  rw [encode_object, List.cons_append, List.cons_append] at reads ⊢
  rw [Reader.record, nextToken_cons (by decide)]
  simp only [ok_bind, if_neg brace, reads]

theorem partsRead_record {items : List Json} (short : items.length ≤ names.length)
    (read : FieldsRead field state (names.zip items) last) :
    ∃ more, PartsRead (recordStep field) Json.encode ⟨false, names, state⟩ items ⟨false, more, last⟩ := by
  induction items generalizing names state with
  | nil =>
    rw [List.zip_nil_right] at read
    cases read
    exact ⟨names, .nil _⟩
  | cons json items ih =>
    cases names with
    | nil => cases short
    | cons name names =>
      cases read with
      | @cons _ _ next _ _ _ reads others =>
        obtain ⟨more, parts⟩ := ih (Nat.le_of_succ_le_succ short) others
        refine ⟨more, .cons (fun _ => ?_) parts⟩
        exact elementStep_next (reads.map fun next => (⟨false, names, next⟩ : Elements State))

theorem Reads.record_array {items : List Json} (short : items.length ≤ names.length)
    (read : FieldsRead field initial (names.zip items) last) :
    Reads (Reader.record names field initial) (.array items) last := by
  intro rest _
  have bracket : toChar 0x5B = '[' := by decide
  rw [encode_array, List.cons_append, List.cons_append, List.append_assoc, List.singleton_append]
  simp only [Reader.record, nextToken_cons (by decide : isBlank 0x5B = false), ok_bind, if_pos bracket]
  cases items with
  | nil =>
    rw [List.zip_nil_right] at read
    cases read
    exact iterate_of_steps (.here _ (0x5D :: rest)) (elementStep_close _ _ _ rest)
  | cons json items =>
    cases names with
    | nil => cases short
    | cons name names =>
      cases read with
      | @cons _ _ next _ _ _ reads others =>
        obtain ⟨more, parts⟩ := partsRead_record (Nat.le_of_succ_le_succ short) others
        rw [bytes_writeItems_cons]
        refine iterate_parts (delimits_bracket rest) (encode_ne_nil json) (fun _ => ?_) parts
          (elementStep_close _ _ _ rest)
        exact elementStep_first (reads.map fun next => (⟨false, names, next⟩ : Elements State))

end Objects

/-! ### Names out of a closed set -/

section Variants

variable {ofName? : String → Option Value} {name : String} {value : Value}

theorem Reads.variant_text (known : ofName? name = some value) :
    Reads (Reader.variant ofName?) (.text name) value := by
  intro rest delimits
  have reads := (Reads.text name).refine known delimits
  have quote : toChar 0x22 ≠ '\x7b' := by decide
  rw [encode_text, List.cons_append, List.cons_append] at reads ⊢
  rw [Reader.variant, nextToken_cons (by decide)]
  simp only [ok_bind, if_neg quote, reads]

theorem Reads.variant_object (known : ofName? name = some value) :
    Reads (Reader.variant ofName?) (.object [(name, .null)]) value := by
  intro rest _
  have brace : toChar 0x7B = '\x7b' := by decide
  have colon : ¬ toChar 0x3A ≠ ':' := by decide
  have close : toChar 0x7D = '\x7d' := by decide
  have written : encode (.object [(name, .null)]) ++ rest =
      0x7B :: (encode (.text name) ++ 0x3A :: (encode .null ++ 0x7D :: rest)) := by
    rw [encode_object, bytes_writeFields_cons, encodeField, encode_text, bytes_quoted]
    simp
  simp only [written, Reader.variant, nextToken_cons (by decide : isBlank 0x7B = false), ok_bind, if_pos brace,
    Reader.refine, text_encode, known, nextToken_cons (by decide : isBlank 0x3A = false), if_neg colon,
    null_encode, nextToken_cons (by decide : isBlank 0x7D = false), if_pos close]

end Variants

theorem readAll_encode {reader : Reader Value} {json : Json} {value : Value}
    (reads : Reads reader json value) : readAll reader json.encode = .ok value := by
  have read : reader (json.encode ++ []) = .ok (value, []) := reads trivial
  rw [List.append_nil] at read
  simp only [readAll, read, ok_bind]
  rfl

end H8.Json
