import H8.Json.Value
import H8.Proofs.Json.Reader
import H8.Proofs.Text.Numeral
import H8.Proofs.Text.Utf8

/-! The bytes of written values.

A value is written without blanks, and its first byte tells `null` and the end
of an array from all else. Elements and fields are divided by commas.
-/

set_option autoImplicit false

namespace H8.Json

open Text (asciiBytes bytes bytes_append bytes_eq)

theorem toChar_ofNat_of_ascii {c : Char} (ascii : c.toNat < 128) :
    Reader.toChar (UInt8.ofNat c.toNat) = c := by
  rw [Reader.toChar_eq_iff, UInt8.toNat_ofNat_of_lt' (Nat.lt_trans ascii (by decide))]

def escaped (text : List Char) : Bytes := (text.flatMap escapeChar).flatMap String.utf8EncodeChar

def encodeField (field : String × Json) : Bytes := bytes (quoted field.1) ++ 0x3A :: field.2.encode

theorem encode_null : encode .null = [0x6E, 0x75, 0x6C, 0x6C] := rfl

theorem ascii_of_mem_decimal {value : Nat} {c : Char} (member : c ∈ (Text.decimal value).toList) :
    c.toNat < 128 := by
  have digit := Text.isDigit_of_mem_decimal member
  simp only [Char.isDigit, Bool.and_eq_true, decide_eq_true_eq, UInt32.le_iff_toNat_le] at digit
  exact Nat.lt_of_le_of_lt digit.2 (by decide)

theorem encode_number (value : Nat) :
    encode (.number value) = asciiBytes (Text.decimal value).toList := by
  rw [encode, write, bytes_eq, Text.flatMap_utf8EncodeChar_of_ascii fun _ => ascii_of_mem_decimal]

theorem encode_number_eq_cons (value : Nat) :
    ∃ first rest, encode (.number value) = first :: rest ∧ (Reader.toChar first).isDigit = true := by
  obtain ⟨first, rest, digits⟩ : ∃ first rest, (Text.decimal value).toList = first :: rest :=
    List.exists_cons_of_ne_nil (by simp [Text.decimal])
  have member : first ∈ (Text.decimal value).toList := digits ▸ List.mem_cons_self
  refine ⟨UInt8.ofNat first.toNat, asciiBytes rest, by rw [encode_number, digits]; rfl, ?_⟩
  rw [toChar_ofNat_of_ascii (ascii_of_mem_decimal member)]
  exact Text.isDigit_of_mem_decimal member

theorem bytes_quoted (text : String) : bytes (quoted text) = 0x22 :: escaped text.toList ++ [0x22] := by
  have inner : bytes (String.ofList (text.toList.flatMap escapeChar)) = escaped text.toList := by
    rw [bytes_eq, String.toList_ofList, escaped]
  rw [quoted, bytes_append, bytes_append, inner]
  rfl

theorem encode_text (text : String) : encode (.text text) = 0x22 :: escaped text.toList ++ [0x22] :=
  bytes_quoted text

theorem encode_array (items : List Json) :
    encode (.array items) = 0x5B :: bytes (writeItems items) ++ [0x5D] := by
  rw [encode, write, bytes_append, bytes_append]
  rfl

theorem encode_object (fields : List (String × Json)) :
    encode (.object fields) = 0x7B :: bytes (writeFields fields) ++ [0x7D] := by
  rw [encode, write, bytes_append, bytes_append]
  rfl

theorem bytes_write (json : Json) : bytes json.write = json.encode := rfl

theorem bytes_comma : bytes "," = [0x2C] := rfl

theorem bytes_writeItems_cons (first : Json) (rest : List Json) :
    bytes (writeItems (first :: rest)) = first.encode ++ rest.flatMap fun json => 0x2C :: json.encode := by
  induction rest generalizing first with
  | nil => simp only [writeItems, bytes_write, List.flatMap_nil, List.append_nil]
  | cons second rest ih =>
    simp only [writeItems, bytes_append, bytes_write, bytes_comma, ih, List.flatMap_cons,
      List.append_assoc, List.cons_append, List.nil_append]

theorem bytes_writeFields_cons (first : String × Json) (rest : List (String × Json)) :
    bytes (writeFields (first :: rest)) =
      encodeField first ++ rest.flatMap fun field => 0x2C :: encodeField field := by
  have colon : bytes ":" = [0x3A] := rfl
  induction rest generalizing first with
  | nil =>
    simp only [writeFields, bytes_append, bytes_write, colon, encodeField, List.flatMap_nil,
      List.append_assoc, List.cons_append, List.nil_append, List.append_nil]
  | cons second rest ih =>
    simp only [writeFields, bytes_append, bytes_write, bytes_comma, colon, ih, encodeField,
      List.flatMap_cons, List.append_assoc, List.cons_append, List.nil_append]

structure Opens (json : Json) (first : UInt8) : Prop where
  not_blank : Reader.isBlank first = false
  not_close : Reader.toChar first ≠ ']'
  null_of : Reader.toChar first = 'n' → json = .null

theorem isBlank_of_isDigit {byte : UInt8} (digit : (Reader.toChar byte).isDigit = true) :
    Reader.isBlank byte = false := by
  rw [← Bool.not_eq_true]
  intro blank
  simp only [Reader.isBlank, Bool.or_eq_true, decide_eq_true_eq] at blank
  rcases blank with ((rfl | rfl) | rfl) | rfl <;> exact absurd digit (by decide)

theorem opens_of_isDigit {json : Json} {first : UInt8} (digit : (Reader.toChar first).isDigit = true) :
    Opens json first where
  not_blank := isBlank_of_isDigit digit
  not_close same := absurd (same ▸ digit) (by decide)
  null_of same := absurd (same ▸ digit) (by decide)

theorem opens_of_mark {json : Json} {first : UInt8} (mark : first = 0x22 ∨ first = 0x5B ∨ first = 0x7B) :
    Opens json first := by
  rcases mark with rfl | rfl | rfl <;> exact ⟨by decide, by decide, fun same => absurd same (by decide)⟩

theorem exists_opens (json : Json) : ∃ first rest, json.encode = first :: rest ∧ Opens json first := by
  cases json with
  | null => exact ⟨_, _, encode_null, by decide, by decide, fun _ => rfl⟩
  | number value =>
    obtain ⟨first, rest, same, digit⟩ := encode_number_eq_cons value
    exact ⟨first, rest, same, opens_of_isDigit digit⟩
  | text text => exact ⟨_, _, encode_text text, opens_of_mark (.inl rfl)⟩
  | array items => exact ⟨_, _, encode_array items, opens_of_mark (.inr (.inl rfl))⟩
  | object fields => exact ⟨_, _, encode_object fields, opens_of_mark (.inr (.inr rfl))⟩

end H8.Json
