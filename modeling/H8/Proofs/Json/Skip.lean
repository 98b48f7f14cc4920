import H8.Proofs.Json.RoundTrip

/-! Values that nobody asks for are passed over as a whole.

The reader keeps a stack of the arrays and objects that it is in. A value is
passed over when the stack is what it was and the text behind the value is
left, and a value in an array or object is a part of a longer way of that kind.
-/

set_option autoImplicit false

namespace H8.Json

open Reader
open Text (asciiBytes bytes)

/-! ### Strings -/

theorem skipStringStep_letter {c letter : Char} (escape : shortEscape? c = some letter) (rest : Bytes) :
    skipStringStep () (0x5C :: UInt8.ofNat letter.toNat :: rest) = .ok (.again (), rest) := by
  obtain ⟨ascii, notCode, plain⟩ := plainEscape?_of_shortEscape? escape
  have quote : toChar 0x5C ≠ '"' := by decide
  have backslash : toChar 0x5C = '\\' := by decide
  rw [skipStringStep, if_neg quote, if_pos backslash, nextChar_cons_of_ascii ascii]
  simp only [ok_bind, if_neg notCode, plain, Option.isSome_some, if_true]

theorem skipStringStep_code {c : Char} (control : c.toNat < 0x20) (rest : Bytes) :
    skipStringStep () (0x5C :: (asciiBytes
      ['u', '0', '0', Nat.digitChar (c.toNat / 16), Nat.digitChar (c.toNat % 16)] ++ rest)) =
      .ok (.again (), rest) := by
  have mark : 'u'.toNat < 128 := by decide
  have quote : toChar 0x5C ≠ '"' := by decide
  have backslash : toChar 0x5C = '\\' := by decide
  have code := hexCode_code control rest
  rw [asciiBytes] at code ⊢
  rw [skipStringStep, if_neg quote, if_pos backslash, List.map_cons, List.cons_append,
    nextChar_cons_of_ascii mark]
  simp only [ok_bind, if_true, code]

theorem steps_skip_plain {bytes : Bytes} (plain : ∀ byte ∈ bytes, IsPlain byte) (rest : Bytes) :
    Steps skipStringStep () (bytes ++ rest) () rest := by
  induction bytes with
  | nil => exact .here () rest
  | cons byte bytes ih =>
    rw [List.forall_mem_cons] at plain
    obtain ⟨⟨quote, backslash, visible⟩, later⟩ := plain
    have step : skipStringStep () (byte :: (bytes ++ rest)) = .ok (.again (), bytes ++ rest) := by
      rw [skipStringStep, if_neg quote, if_neg backslash, if_neg visible]
    exact .again step (by simp) (ih later)

theorem steps_skip_of_standsFor {c : Char} {bytes : Bytes} (stands : StandsFor c bytes) (rest : Bytes) :
    Steps skipStringStep () (bytes ++ rest) () rest := by
  cases stands with
  | letter escape => exact .again (skipStringStep_letter escape rest) (length_lt_cons_append _ _ _) (.here _ _)
  | code control => exact .again (skipStringStep_code control rest) (length_lt_cons_append _ _ _) (.here _ _)
  | plain plain => exact steps_skip_plain plain rest

theorem skipStringBody_escaped (text : List Char) (rest : Bytes) :
    skipStringBody (escaped text ++ 0x22 :: rest) = .ok ((), rest) := by
  have steps : Steps skipStringStep () (escaped text ++ 0x22 :: rest) () (0x22 :: rest) := by
    induction text with
    | nil => exact .here () _
    | cons c text ih =>
      have first := steps_skip_of_standsFor (standsFor_escapeChar c) (escaped text ++ 0x22 :: rest)
      simpa [escaped] using first.trans ih
  exact iterate_of_steps steps rfl

/-! ### Values and what they are parts of -/

theorem sizeOf_snd_lt_of_mem {fields : List (String × Json)} {field : String × Json} (member : field ∈ fields) :
    sizeOf field.2 < sizeOf fields := by
  have smaller := List.sizeOf_lt_of_mem member
  rw [Prod.mk.sizeOf_spec] at smaller
  omega

@[elab_as_elim]
theorem induction {motive : Json → Prop} (null : motive .null) (number : ∀ value, motive (.number value))
    (text : ∀ value, motive (.text value))
    (array : ∀ items, (∀ item ∈ items, motive item) → motive (.array items))
    (object : ∀ fields, (∀ field ∈ fields, motive field.2) → motive (.object fields)) :
    ∀ json, motive json
  | .null => null
  | .number value => number value
  | .text value => text value
  | .array items => array items fun item _ => induction null number text array object item
  | .object fields => object fields fun field member =>
    have := sizeOf_snd_lt_of_mem member
    induction null number text array object field.2

/-- A reader starts on a way over the given text, whatever delimits it, to the
place behind it among the given enclosures. -/
def Passes (reader : Reader (Position × List Enclosure)) (text : Bytes) (around : List Enclosure) : Prop :=
  ∀ ⦃rest⦄, Delimits rest → ∃ place between, reader (text ++ rest) = .ok (place, between) ∧
    between.length < (text ++ rest).length ∧ Steps skipStep place between (.behind, around) rest

theorem Passes.of_behind {reader : Reader (Position × List Enclosure)} {text : Bytes} {around : List Enclosure}
    (nonempty : text ≠ [])
    (read : ∀ ⦃rest⦄, Delimits rest → reader (text ++ rest) = .ok ((.behind, around), rest)) :
    Passes reader text around := by
  intro rest delimits
  refine ⟨_, _, read delimits, ?_, .here _ _⟩
  have long := List.length_pos_iff.mpr nonempty
  rw [List.length_append]
  omega

theorem passes_null (around : List Enclosure) : Passes (skipStart around) (encode .null) around :=
  .of_behind (encode_ne_nil _) fun _ _ => rfl

theorem passes_text (around : List Enclosure) (text : String) :
    Passes (skipStart around) (encode (.text text)) around := by
  refine .of_behind (encode_ne_nil _) fun rest _ => ?_
  rw [encode_text, List.cons_append, List.cons_append, List.append_assoc, List.singleton_append]
  have body := skipStringBody_escaped text.toList rest
  rw [skipStart, nextToken_cons (by decide)]
  simp only [ok_bind, Reader.map, body]
  rfl

theorem passes_number (around : List Enclosure) (value : Nat) :
    Passes (skipStart around) (encode (.number value)) around := by
  refine .of_behind (encode_ne_nil _) fun rest delimits => ?_
  obtain ⟨first, after, same, digit⟩ := encode_number_eq_cons value
  have plain := isBlank_of_isDigit digit
  have read := unsignedNumber_decimal .malformed value delimits
  have differs {c : Char} (other : c.isDigit = false) : toChar first ≠ c := by
    rintro rfl
    rw [digit] at other
    cases other
  rw [← encode_number] at read
  rw [same, List.cons_append] at read ⊢
  simp only [skipStart, nextToken_cons plain, skipBlanks_cons plain, ok_bind, startsNumber, digit, if_true,
    if_neg (differs (by decide : 'n'.isDigit = false)), if_neg (differs (by decide : 't'.isDigit = false)),
    if_neg (differs (by decide : 'f'.isDigit = false)), if_neg (differs (by decide : '"'.isDigit = false)),
    if_neg (differs (by decide : '-'.isDigit = false)), Reader.map, read]

section Enclosed

variable {inner : Enclosure} {outer : List Enclosure} {part : Bytes} {parts : List Bytes} {rest : Bytes}

def StartsPart (inner : Enclosure) (part : Bytes) : Prop :=
  ∃ first more, part = first :: more ∧ isBlank first = false ∧ toChar first ≠ inner.close

theorem skipStep_close (position : Position) (inner : Enclosure) (outer : List Enclosure) (rest : Bytes) :
    skipStep (position, inner :: outer) (UInt8.ofNat inner.close.toNat :: rest) =
      .ok (.again (.behind, outer), rest) := by
  cases inner <;> rfl

theorem steps_first (starts : StartsPart inner part) (passes : Passes (skipPart inner outer) part (inner :: outer))
    (delimits : Delimits rest) :
    Steps skipStep (.opened, inner :: outer) (part ++ rest) (.behind, inner :: outer) rest := by
  obtain ⟨place, between, read, shorter, steps⟩ := passes delimits
  refine .again ?_ shorter steps
  obtain ⟨first, more, rfl, plain, open'⟩ := starts
  rw [List.cons_append] at read ⊢
  simp only [skipStep, nextToken_cons plain, ok_bind, if_neg open', if_true, Reader.map, read]

theorem steps_next (passes : Passes (skipPart inner outer) part (inner :: outer)) (delimits : Delimits rest) :
    Steps skipStep (.behind, inner :: outer) (0x2C :: (part ++ rest)) (.behind, inner :: outer) rest := by
  obtain ⟨place, between, read, shorter, steps⟩ := passes delimits
  have comma : toChar 0x2C = ',' := by decide
  have goes : toChar 0x2C ≠ inner.close := by cases inner <;> decide
  have onward : Position.behind ≠ .opened := by decide
  refine .again ?_ (Nat.lt_succ_of_lt shorter) steps
  simp only [skipStep, nextToken_cons (by decide : isBlank 0x2C = false), ok_bind, if_neg goes, if_neg onward,
    if_pos comma, Reader.map, read]

theorem steps_rest (passes : ∀ part ∈ parts, Passes (skipPart inner outer) part (inner :: outer))
    (delimits : Delimits rest) :
    Steps skipStep (.behind, inner :: outer) (parts.flatMap (0x2C :: ·) ++ rest) (.behind, inner :: outer) rest := by
  induction parts with
  | nil => exact .here _ _
  | cons part parts ih =>
    rw [List.forall_mem_cons] at passes
    rw [List.flatMap_cons, List.cons_append, List.cons_append, List.append_assoc]
    exact (steps_next passes.1 (delimits_commas id parts delimits)).trans (ih passes.2)

def commaSeparated : List Bytes → Bytes
  | [] => []
  | first :: others => first ++ others.flatMap (0x2C :: ·)

theorem steps_parts (closes : Delimits (UInt8.ofNat inner.close.toNat :: rest))
    (starts : ∀ part ∈ parts, StartsPart inner part)
    (passes : ∀ part ∈ parts, Passes (skipPart inner outer) part (inner :: outer)) :
    Steps skipStep (.opened, inner :: outer)
      (commaSeparated parts ++ UInt8.ofNat inner.close.toNat :: rest) (.behind, outer) rest := by
  have last (position : Position) : Steps skipStep (position, inner :: outer)
      (UInt8.ofNat inner.close.toNat :: rest) (.behind, outer) rest :=
    .again (skipStep_close position inner outer rest) (by simp) (.here _ _)
  cases parts with
  | nil => exact last .opened
  | cons first others =>
    rw [List.forall_mem_cons] at starts passes
    rw [commaSeparated, List.append_assoc]
    have one := steps_first starts.1 passes.1 (delimits_commas id others closes)
    exact (one.trans (steps_rest passes.2 closes)).trans (last .behind)

theorem passes_enclosed {opening : UInt8}
    (opens : ∀ rest, skipStart outer (opening :: rest) = .ok ((.opened, inner :: outer), rest))
    (starts : ∀ part ∈ parts, StartsPart inner part)
    (passes : ∀ part ∈ parts, Passes (skipPart inner outer) part (inner :: outer)) :
    Passes (skipStart outer) (opening :: commaSeparated parts ++ [UInt8.ofNat inner.close.toNat]) outer := by
  intro rest _
  have closes : Delimits (UInt8.ofNat inner.close.toNat :: rest) := by
    cases inner
    · exact delimits_bracket rest
    · exact delimits_brace rest
  rw [List.append_assoc, List.singleton_append, List.cons_append]
  exact ⟨_, _, opens _, by simp, steps_parts closes starts passes⟩

end Enclosed

section Parts

variable {json : Json} {outer : List Enclosure}

theorem startsPart_encode (json : Json) : StartsPart .array json.encode := by
  obtain ⟨first, more, same, opens⟩ := exists_opens json
  exact ⟨first, more, same, opens.not_blank, opens.not_close⟩

theorem startsPart_encodeField (field : String × Json) : StartsPart .object (encodeField field) := by
  rw [encodeField, bytes_quoted]
  exact ⟨0x22, _, rfl, by decide, by decide⟩

theorem Passes.field (passes : Passes (skipStart (.object :: outer)) json.encode (.object :: outer))
    (name : String) : Passes (skipPart .object outer) (encodeField (name, json)) (.object :: outer) := by
  intro rest delimits
  obtain ⟨place, between, read, shorter, steps⟩ := passes delimits
  have quote : ¬ toChar 0x22 ≠ '"' := by decide
  have colon : ¬ toChar 0x3A ≠ ':' := by decide
  rw [encodeField_append]
  refine ⟨place, between, ?_, ?_, steps⟩
  · simp only [skipPart, skipName, nextToken_cons (by decide : isBlank 0x22 = false), ok_bind, if_neg quote,
      skipStringBody_escaped, nextToken_cons (by decide : isBlank 0x3A = false), if_neg colon, read]
  · simp only [List.length_cons, List.length_append] at shorter ⊢
    omega

theorem bytes_writeItems (items : List Json) :
    bytes (writeItems items) = commaSeparated (items.map Json.encode) := by
  cases items with
  | nil => rfl
  | cons first rest => rw [bytes_writeItems_cons, List.map_cons, commaSeparated, List.flatMap_map]

theorem bytes_writeFields (fields : List (String × Json)) :
    bytes (writeFields fields) = commaSeparated (fields.map encodeField) := by
  cases fields with
  | nil => rfl
  | cons first rest => rw [bytes_writeFields_cons, List.map_cons, commaSeparated, List.flatMap_map]

end Parts

theorem passes_encode (json : Json) (around : List Enclosure) :
    Passes (skipStart around) json.encode around := by
  induction json using Json.induction generalizing around with
  | null => exact passes_null around
  | number value => exact passes_number around value
  | text text => exact passes_text around text
  | array items ih =>
    have opens (rest : Bytes) : skipStart around (0x5B :: rest) = .ok ((.opened, .array :: around), rest) := rfl
    rw [encode_array, bytes_writeItems]
    refine passes_enclosed opens ?_ ?_
    · exact List.forall_mem_map.mpr fun json _ => startsPart_encode json
    · exact List.forall_mem_map.mpr fun json member => ih json member (.array :: around)
  | object fields ih =>
    have opens (rest : Bytes) : skipStart around (0x7B :: rest) = .ok ((.opened, .object :: around), rest) := rfl
    rw [encode_object, bytes_writeFields]
    refine passes_enclosed opens ?_ ?_
    · exact List.forall_mem_map.mpr fun field _ => startsPart_encodeField field
    · exact List.forall_mem_map.mpr fun field member => (ih field member (.object :: around)).field field.1

theorem Reads.skipValue (json : Json) : Reads skipValue json () := by
  intro rest delimits
  obtain ⟨place, between, read, -, steps⟩ := passes_encode json [] delimits
  rw [Reader.skipValue, read]
  exact iterate_of_steps steps rfl

end H8.Json
