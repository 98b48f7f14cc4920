import H8.Input
import H8.Proofs.Assembly.Operands
import H8.Proofs.Text.Blank

/-! Numbers as they are written and as they are read.

A style writes small numbers in decimal and all others in hexadecimal behind
its mark. The readers take a number without a mark as decimal or, where an
address is expected, as hexadecimal. The two readings agree on a single digit,
so every number of 32 bits is read back.
-/

set_option autoImplicit false

namespace H8

open Assembly

theorem Assembly.isBlank_of_isWordChar {c : Char} (word : isWordChar c = true) :
    Text.isBlank c = false := by
  have between : 0x27 ≤ c.toNat ∧ c.toNat ≤ 0x7A := by
    simp only [isWordChar, Bool.or_eq_true, decide_eq_true_eq] at word
    rcases word with letter | rfl
    · -- Letters and digits, by the ranges that they are defined by.
      change ((decide (0x41 ≤ c.val ∧ c.val ≤ 0x5A) || (decide (0x61 ≤ c.val) && decide (c.val ≤ 0x7A))) ||
        (decide (0x30 ≤ c.val) && decide (c.val ≤ 0x39))) = true at letter
      simp only [Bool.or_eq_true, Bool.and_eq_true, decide_eq_true_eq, UInt32.le_iff_toNat_le] at letter
      change ((0x41 ≤ c.toNat ∧ c.toNat ≤ 0x5A) ∨ (0x61 ≤ c.toNat ∧ c.toNat ≤ 0x7A)) ∨
        (0x30 ≤ c.toNat ∧ c.toNat ≤ 0x39) at letter
      omega
    · decide
  simp only [Text.isBlank, Text.inRanges, Text.blankRanges, List.any_cons, List.any_nil,
    Bool.or_false, Bool.or_eq_false_iff, Bool.and_eq_false_iff, decide_eq_false_iff_not]
  omega

theorem Assembly.isWordChar_of_mem_hexDigits {value : Nat} {c : Char}
    (member : c ∈ Text.hexDigits value) : isWordChar c = true := by
  rw [isWordChar, Text.isAlphanum_of_mem_hexDigits member, Bool.true_or]

theorem Input.number?_of_gaps {before text after : List Char} (blank : Text.IsGap before)
    (blank' : Text.IsGap after) (solid : ∀ c ∈ text, isWordChar c = true) :
    Input.number? (before ++ text ++ after) = Input.number? text := by
  have solid : ∀ c ∈ text, Text.isBlank c = false := fun c member => isBlank_of_isWordChar (solid c member)
  unfold Input.number?
  rw [Text.trim_of_solid blank blank' solid, Text.trim_eq_self solid]

namespace Assembly.Style
variable (style : Style) {digits : List Char} {value : Nat}

theorem isWordChar_of_mem_hexMark : ∀ c ∈ style.spelling.hexMark.toList, isWordChar c = true := by
  have all : style.spelling.hexMark.toList.all isWordChar = true := by cases style <;> rfl
  exact List.all_eq_true.mp all

theorem stripMarks?_hexMark (digits : List Char) :
    Text.stripMarks? Input.numberMarks (style.spelling.hexMark.toList ++ digits) = some digits := by
  cases style <;> rfl

theorem number?_of_hexMark (solid : ∀ c ∈ digits, isWordChar c = true)
    (reads : Text.digitsValue? 16 digits = some value) (small : value < UInt32.size) :
    Input.number? (style.spelling.hexMark.toList ++ digits) = some value := by
  have trimmed : Text.trim (style.spelling.hexMark.toList ++ digits) =
      style.spelling.hexMark.toList ++ digits := by
    apply Text.trim_eq_self
    intro c member
    apply isBlank_of_isWordChar
    rcases List.mem_append.mp member with front | digit
    · exact style.isWordChar_of_mem_hexMark c front
    · exact solid c digit
  unfold Input.number?
  simp only [trimmed, stripMarks?_hexMark]
  exact Text.readNumeral?_of_digitsValue? reads small

/-- A single digit has no mark and means the same in both radices. -/
theorem stripMarks?_of_lt (small : value < 10) {marks : List (List Char)}
    (known : marks ⊆ Input.numberMarks) : Text.stripMarks? marks (Text.hexDigits value) = none := by
  have digit : ∀ value < 10, ∀ mark ∈ Input.numberMarks,
      Text.stripMark? mark (Text.hexDigits value) = none := by decide
  rw [Text.stripMarks?, List.findSome?_eq_none_iff]
  exact fun mark member => digit value small mark (known member)

theorem number?_number (small : value < UInt32.size) :
    Input.number? (style.number value).toList = some value := by
  -- Without a mark the reader takes the digits as decimal, with one as hexadecimal.
  by_cases digit : value < 10
  · have decimal : Text.digitsValue? 10 (Text.hexDigits value) = some value := by
      rw [← Text.toList_decimal_of_lt digit, Text.digitsValue?_decimal]
    have trimmed : Text.trim (Text.hexDigits value) = Text.hexDigits value :=
      Text.trim_eq_self fun c member => isBlank_of_isWordChar (isWordChar_of_mem_hexDigits member)
    rw [toList_number_of_lt style digit]
    unfold Input.number?
    simp only [trimmed, stripMarks?_of_lt digit (List.Subset.refl _)]
    exact Text.readNumeral?_of_digitsValue? decimal small
  · rw [toList_number_of_le style (by omega)]
    exact style.number?_of_hexMark (fun _ => isWordChar_of_mem_hexDigits)
      (Text.digitsValue?_hexDigits value) small

theorem address?_number (value : Address) :
    Input.address? (fun _ => none) (Style.gas.number value.toNat) = some value := by
  have digits : (Text.stripMarks? Input.addressMarks (Style.gas.number value.toNat).toList).getD
      (Style.gas.number value.toNat).toList = Text.hexDigits value.toNat := by
    by_cases digit : value.toNat < 10
    · rw [toList_number_of_lt _ digit, stripMarks?_of_lt digit (by decide), Option.getD_none]
    · rw [toList_number_of_le _ (by omega)]
      rfl
  have reads := Text.readNumeral?_of_digitsValue? (Text.digitsValue?_hexDigits value.toNat)
    value.toNat_lt_size
  simp [Input.address?, digits, reads]

theorem literal_signed (value : Int) : style.literal (.signed value) =
    (if value < 0 then "-" else "") ++ style.number value.natAbs := by
  by_cases negative : value < 0 <;> simp [literal, negative]

/-- A sign in front is the sign of the value, since no number starts with one. -/
theorem head?_literal_signed (value : Int) :
    (style.literal (.signed value)).toList.head? = some '-' ↔ value < 0 := by
  rw [literal_signed]
  by_cases negative : value < 0
  · simp [negative]
  · have unsigned : (style.number value.natAbs).toList.head? ≠ some '-' := by
      intro starts
      have word := (style.numeral value.natAbs).isWordChar_of_mem '-' (List.mem_of_mem_head? starts)
      exact absurd word (by decide)
    simpa [negative] using unsigned

theorem literal_signed_inj {first second : Int}
    (same : style.literal (.signed first) = style.literal (.signed second)) : first = second := by
  have signs : first < 0 ↔ second < 0 := by
    rw [← head?_literal_signed style, same, head?_literal_signed]
  have sizes : first.natAbs = second.natAbs := by
    rw [literal_signed, literal_signed] at same
    simp only [signs] at same
    have chars := congrArg String.toList same
    rw [String.toList_append, String.toList_append] at chars
    exact style.number_inj (String.toList_inj.mp (List.append_cancel_left chars))
  omega

end Assembly.Style

/-- Numbers of 32 bits are read back in both styles, and as addresses in the style
whose mark an address may carry. A signed number shows its sign and its size, so
no two are written alike. -/
theorem numbers_read_back :
    (∀ (style : Style) (value : UInt32),
      Input.number? (style.number value.toNat).toList = some value.toNat) ∧
    (∀ value : UInt32, Input.address? (fun _ => none) (Style.gas.number value.toNat) = some value) ∧
    ∀ style : Style,
      (∀ value : Int32, style.literal (.signed value.toInt) =
          (if value.toInt < 0 then "-" else "") ++ style.number value.toInt.natAbs ∧
        Input.number? (style.number value.toInt.natAbs).toList = some value.toInt.natAbs) ∧
      ∀ first second : Int32,
        style.literal (.signed first.toInt) = style.literal (.signed second.toInt) →
          first = second := by
  refine ⟨fun style value => style.number?_number value.toNat_lt_size, Style.address?_number,
    fun style => ⟨fun value => ⟨style.literal_signed value.toInt, ?_⟩, fun first second same => ?_⟩⟩
  · have low := value.le_toInt
    have high := value.toInt_lt
    have small : value.toInt.natAbs < UInt32.size := by
      simp only [UInt32.size]
      omega
    exact style.number?_number small
  · exact Int32.toInt_inj.mp (style.literal_signed_inj same)

/-- The least number has no positive counterpart, but its size is still read. -/
theorem numbers_read_back_least :
    Style.hew.literal (.signed Int32.minValue.toInt) = "-" ++ Style.hew.number 0x80000000 ∧
      Input.number? (Style.hew.number 0x80000000).toList = some 0x80000000 ∧
      Style.hew.literal (.signed Int32.minValue.toInt) ≠
        Style.hew.literal (.signed Int32.maxValue.toInt) := by
  obtain ⟨-, -, signed⟩ := numbers_read_back
  obtain ⟨written, distinct⟩ := signed .hew
  obtain ⟨text, read⟩ := written Int32.minValue
  exact ⟨text, read, fun same => absurd (distinct _ _ same) (by decide)⟩

end H8
