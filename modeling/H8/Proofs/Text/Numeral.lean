import H8.Text.Numeral
import Mathlib.Data.List.Forall2
import Mathlib.Data.Nat.Digits.Defs
import Mathlib.Tactic.Ring

/-! Decimal and hexadecimal numerals are read back as the numbers that they
were written from. So numbers with the same digits are the same. What is read is
the number with the given digits, and nothing but digits is read.
-/

set_option autoImplicit false

namespace H8.Text

theorem extendValue?_append (radix value : Nat) (first second : List Char) :
    extendValue? radix value (first ++ second) =
      (extendValue? radix value first).bind fun value => extendValue? radix value second := by
  induction first generalizing value with
  | nil => rfl
  | cons c rest ih =>
    simp only [List.cons_append, extendValue?, Option.bind_eq_bind]
    cases digitValue? radix c with
    | none => rfl
    | some digit => exact ih _

/-- A numeral stands for the number that it was written from, however its
digits are spelled. -/
theorem extendValue?_toDigits {radix : Nat} (spell : Char → Char) (many : 1 < radix)
    (reads : ∀ digit < radix, digitValue? radix (spell digit.digitChar) = some digit) (value : Nat) :
    extendValue? radix 0 ((Nat.toDigits radix value).map spell) = some value := by
  induction value using Nat.strongRecOn with
  | ind value ih =>
    by_cases small : value < radix
    · simp [Nat.toDigits_of_lt_base small, extendValue?, reads value small]
    · have shorter : value / radix < value := Nat.div_lt_self (by omega) many
      rw [Nat.toDigits_of_base_le many (by omega), List.map_append, extendValue?_append, ih _ shorter]
      simp [extendValue?, reads _ (Nat.mod_lt value (by omega)), Nat.div_add_mod]

theorem digitsValue?_of_ne_nil {radix : Nat} {digits : List Char} (nonempty : digits ≠ []) :
    digitsValue? radix digits = extendValue? radix 0 digits := by
  unfold digitsValue?
  split
  · contradiction
  · rfl

theorem digitsValue?_toDigits {radix : Nat} (spell : Char → Char) (many : 1 < radix)
    (reads : ∀ digit < radix, digitValue? radix (spell digit.digitChar) = some digit) (value : Nat) :
    digitsValue? radix ((Nat.toDigits radix value).map spell) = some value := by
  rw [digitsValue?_of_ne_nil (by simp)]
  exact extendValue?_toDigits spell many reads value

/-- Zeros in front do not change a value. -/
theorem digitsValue?_zeros_append {digits : List Char} (nonempty : digits ≠ []) (count : Nat) :
    digitsValue? 16 (List.replicate count '0' ++ digits) = digitsValue? 16 digits := by
  have zeros : extendValue? 16 0 (List.replicate count '0') = some 0 := by
    induction count with
    | zero => rfl
    | succ count ih => exact ih
  rw [digitsValue?_of_ne_nil (by simp [nonempty]), digitsValue?_of_ne_nil nonempty, extendValue?_append,
    zeros, Option.bind_some]

theorem readNumeral?_of_digitsValue? {radix bound value : Nat} {digits : List Char}
    (reads : digitsValue? radix digits = some value) (small : value < bound) :
    readNumeral? radix bound digits = some value := by
  unfold readNumeral?
  split
  · next rest =>
    have sign : digitValue? radix '+' = none := rfl
    simp [digitsValue?, extendValue?, sign] at reads
  · change (digitsValue? radix digits).filter (· < bound) = some value
    simp [reads, small]

def IsNumeral (radix : Nat) (text : List Char) (value : Nat) : Prop :=
  text ≠ [] ∧ ∃ digits, List.Forall₂ (fun c digit => digitValue? radix c = some digit) text digits ∧
    value = Nat.ofDigits radix digits.reverse

theorem extendValue?_eq_some_iff {radix start value : Nat} {text : List Char} :
    extendValue? radix start text = some value ↔
      ∃ digits, List.Forall₂ (fun c digit => digitValue? radix c = some digit) text digits ∧
        value = start * radix ^ digits.length + Nat.ofDigits radix digits.reverse := by
  induction text generalizing start with
  | nil => simp [extendValue?, eq_comm]
  | cons c text ih =>
    -- A digit more shifts the start and stands in front of the others.
    have shifted (digit : Nat) (digits : List Nat) :
        (radix * start + digit) * radix ^ digits.length + Nat.ofDigits radix digits.reverse =
          start * radix ^ (digit :: digits).length + Nat.ofDigits radix (digit :: digits).reverse := by
      rw [List.reverse_cons, Nat.ofDigits_append, Nat.ofDigits_singleton, List.length_reverse,
        List.length_cons]
      ring
    simp only [extendValue?, Option.bind_eq_bind, Option.bind_eq_some_iff, ih, List.forall₂_cons_left_iff]
    constructor
    · rintro ⟨digit, first, digits, rest, rfl⟩
      exact ⟨digit :: digits, ⟨digit, digits, first, rest, rfl⟩, shifted digit digits⟩
    · rintro ⟨-, ⟨digit, digits, first, rest, rfl⟩, rfl⟩
      exact ⟨digit, first, digits, rest, (shifted digit digits).symm⟩

theorem digitsValue?_eq_some_iff {radix value : Nat} {text : List Char} :
    digitsValue? radix text = some value ↔ IsNumeral radix text value := by
  cases text with
  | nil => simp [digitsValue?, IsNumeral]
  | cons c text =>
    rw [digitsValue?_of_ne_nil (List.cons_ne_nil c text), extendValue?_eq_some_iff]
    simp [IsNumeral]

/-- A numeral is read with a plus sign or without, if its value is small enough. -/
theorem readNumeral?_eq_some_iff {radix bound value : Nat} {text : List Char} :
    readNumeral? radix bound text = some value ↔ ∃ sign digits, text = sign ++ digits ∧
      (sign = [] ∨ sign = ['+']) ∧ IsNumeral radix digits value ∧ value < bound := by
  constructor
  · intro read
    unfold readNumeral? at read
    obtain ⟨found, small⟩ := Option.filter_eq_some_iff.mp read
    have small : value < bound := of_decide_eq_true small
    split at found
    · next rest => exact ⟨['+'], rest, rfl, .inr rfl, digitsValue?_eq_some_iff.mp found, small⟩
    · exact ⟨[], text, rfl, .inl rfl, digitsValue?_eq_some_iff.mp found, small⟩
  · rintro ⟨sign, digits, rfl, rfl | rfl, numeral, small⟩
    · exact readNumeral?_of_digitsValue? (digitsValue?_eq_some_iff.mpr numeral) small
    · simp [readNumeral?, digitsValue?_eq_some_iff.mpr numeral, small]

theorem isSome_digitValue?_ten (c : Char) : (digitValue? 10 c).isSome = c.isDigit := by
  have range : (decide ('0' ≤ c) && decide (c ≤ '9')) = c.isDigit := rfl
  unfold digitValue?
  rw [range]
  cases digit : c.isDigit with
  | true =>
    rw [← range, Bool.and_eq_true, decide_eq_true_eq, decide_eq_true_eq] at digit
    have upper : c.toNat ≤ 57 := UInt32.le_iff_toNat_le.mp (Char.le_def.mp digit.2)
    have small : c.toNat - 48 < 10 := by omega
    simp [small]
  | false =>
    -- Letters stand for ten and more.
    simp only [Bool.false_eq_true, if_false]
    split
    · simp
    · split <;> simp

theorem stripMark?_append (mark rest : List Char) : stripMark? mark (mark ++ rest) = some rest := by
  rw [stripMark?, if_pos (List.isPrefixOf_iff_prefix.mpr (List.prefix_append mark rest)),
    List.drop_left]

theorem stripMark?_of_not_isPrefix {mark text : List Char} (other : ¬ mark <+: text) :
    stripMark? mark text = none := by
  rw [stripMark?, if_neg (mt List.isPrefixOf_iff_prefix.mp other)]

theorem hexDigits_of_lt {value : Nat} (small : value < 16) :
    hexDigits value = [value.digitChar.toUpper] := by
  rw [hexDigits, Nat.toDigits_of_lt_base small]
  rfl

theorem hexDigits_of_le {value : Nat} (large : 16 ≤ value) :
    hexDigits value = hexDigits (value / 16) ++ [(value % 16).digitChar.toUpper] := by
  rw [hexDigits, Nat.toDigits_of_base_le (by decide) large, List.map_append]
  rfl

theorem digitsValue?_hexDigits (value : Nat) : digitsValue? 16 (hexDigits value) = some value :=
  digitsValue?_toDigits Char.toUpper (by decide) (by decide) value

theorem hexDigits_ne_nil (value : Nat) : hexDigits value ≠ [] := by
  simp [hexDigits]

theorem isAlphanum_of_mem_hexDigits {value : Nat} {c : Char} (member : c ∈ hexDigits value) :
    c.isAlphanum = true := by
  have digit : ∀ digit < 16, digit.digitChar.toUpper.isAlphanum = true := by decide
  induction value using Nat.strongRecOn with
  | ind value ih =>
    by_cases small : value < 16
    · rw [hexDigits_of_lt small, List.mem_singleton] at member
      exact member ▸ digit value small
    · rw [hexDigits_of_le (by omega), List.mem_append, List.mem_singleton] at member
      rcases member with earlier | rfl
      · exact ih (value / 16) (by omega) earlier
      · exact digit (value % 16) (Nat.mod_lt _ (by decide))

/-- One digit is the same in both radices. -/
theorem toList_decimal_of_lt {value : Nat} (small : value < 10) :
    (decimal value).toList = hexDigits value := by
  have digit : ∀ digit < 10, digit.digitChar.toUpper = digit.digitChar := by decide
  rw [decimal, String.toList_ofList, Nat.toDigits_of_lt_base small,
    hexDigits_of_lt (by omega), digit value small]

theorem hexDigits_inj {first second : Nat} (same : hexDigits first = hexDigits second) :
    first = second := by
  have read := digitsValue?_hexDigits first
  rw [same, digitsValue?_hexDigits] at read
  exact (Option.some.inj read).symm

theorem digitsValue?_decimal (value : Nat) : digitsValue? 10 (decimal value).toList = some value := by
  rw [decimal, String.toList_ofList]
  have read := digitsValue?_toDigits id (by decide : 1 < 10) (by decide) value
  rwa [List.map_id] at read

theorem isDigit_of_mem_decimal {value : Nat} {c : Char} (member : c ∈ (decimal value).toList) :
    c.isDigit = true := by
  rw [decimal, String.toList_ofList] at member
  exact Nat.isDigit_of_mem_toDigits (by decide) (by decide) member

theorem head?_decimal_ne_zero {value : Nat} (positive : 0 < value) :
    (decimal value).toList.head? ≠ some '0' := by
  have digit : ∀ digit < 10, 0 < digit → digit.digitChar ≠ '0' := by decide
  rw [decimal, String.toList_ofList]
  induction value using Nat.strongRecOn with
  | ind value ih =>
    by_cases small : value < 10
    · simpa [Nat.toDigits_of_lt_base small] using digit value small positive
    · have digits := Nat.toDigits_of_base_le (by decide : 1 < 10) (by omega : 10 ≤ value)
      rw [digits, List.head?_append, Option.or_of_isSome (by simp)]
      exact ih (value / 10) (by omega) (by omega)

theorem decimal_ne_zero_cons (value : Nat) (second : Char) (rest : List Char) :
    (decimal value).toList ≠ '0' :: second :: rest := by
  intro same
  rcases Nat.eq_zero_or_pos value with rfl | positive
  · simp [decimal] at same
  · exact head?_decimal_ne_zero positive (by rw [same]; rfl)

end H8.Text
