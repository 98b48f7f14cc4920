import H8.Assembly.Render
import H8.Assembly.Style
import H8.Proofs.Assembly.Tokens
import H8.Proofs.Decode.Identity
import H8.Proofs.Text.Numeral

/-! The tokens of operands.

Operands have few outlines, which tell where an operand ends. What the text shows
of the kind of an operand can be read back from its tokens. It does not show
all: the stack pointer has one name as a word and as a whole register, and bit
numbers and constants of any width look alike.
-/

set_option autoImplicit false

namespace H8

open Assembly

theorem Register.mem_all (register : Register) : register ∈ Register.all := by
  cases register with
  | general part number =>
    refine List.mem_append_left _ (List.mem_flatMap.mpr ⟨part, ?_, ?_⟩)
    · cases part <;> simp [Part.all]
    · exact List.mem_map.mpr ⟨number, List.mem_finRange number, rfl⟩
  | control name =>
    refine List.mem_append_right _ (List.mem_map.mpr ⟨name, ?_, rfl⟩)
    cases name <;> simp [Control.all]

def Kind.shown : Kind → Kind
  | .longRegister => .wordRegister
  | .bit | .immediate _ => .immediate .byte
  | kind => kind

/-- The kind of an operand that is one word. Only the names of registers start
with a small letter. -/
def wordKind (text : String) : Kind :=
  if text.toList.head?.any Char.isLower then
    match Control.all.find? fun control => control.name = text with
    | some control => .control control
    | none =>
      if text.toList.getLast?.any fun c => c = 'h' || c = 'l' then .byteRegister
      else .wordRegister
  else .relative .bits8

/-- A register name is a word that shows the kind of the register, and it denotes
one register of each kind. -/
theorem Register.name_all : ∀ first ∈ Register.all,
    isWord first.name = true ∧ wordKind first.name = first.kind.shown ∧
      ∀ second ∈ Register.all, first.kind = second.kind → first.name = second.name →
        first = second := by
  decide +kernel

theorem Register.isWord_name (register : Register) : isWord register.name = true :=
  (name_all register register.mem_all).1

theorem Register.wordKind_name (register : Register) :
    wordKind register.name = register.kind.shown :=
  (name_all register register.mem_all).2.1

theorem Register.eq_of_name {first second : Register} (kinds : first.kind = second.kind)
    (same : first.name = second.name) : first = second :=
  (name_all first first.mem_all).2.2 second second.mem_all kinds same

namespace Assembly.Style
variable (style : Style)

theorem toList_number_of_lt {value : Nat} (small : value < 10) :
    (style.number value).toList = Text.hexDigits value := by
  rw [number, if_pos small, Text.toList_decimal_of_lt small]

theorem toList_number_of_le {value : Nat} (large : 10 ≤ value) :
    (style.number value).toList = style.spelling.hexMark.toList ++ Text.hexDigits value := by
  rw [number, if_neg (Nat.not_lt.mpr large), String.toList_append, Text.hex, String.toList_ofList]

theorem isWord_number (value : Nat) : isWord (style.number value) = true := by
  have mark : style.spelling.hexMark.toList.all isWordChar = true := by
    cases style <;> rfl
  have digits : ∀ c ∈ Text.hexDigits value, isWordChar c = true := by
    intro c member
    simp [isWordChar, Text.isAlphanum_of_mem_hexDigits member]
  unfold isWord
  rw [Bool.and_eq_true, List.all_eq_true]
  by_cases small : value < 10
  · rw [toList_number_of_lt style small]
    exact ⟨by simp [Text.hexDigits_ne_nil], digits⟩
  · rw [toList_number_of_le style (by omega)]
    refine ⟨by simp [Text.hexDigits_ne_nil], fun c member => ?_⟩
    exact (List.mem_append.mp member).elim (List.all_eq_true.mp mark c) (digits c)

theorem length_number_eq_one_iff (value : Nat) :
    (style.number value).toList.length = 1 ↔ value < 10 := by
  by_cases small : value < 10
  · have digit := Text.hexDigits_of_lt (Nat.lt_trans small (by decide))
    simp [toList_number_of_lt style small, digit, small]
  · have mark : style.spelling.hexMark.toList.length = 2 := by cases style <;> rfl
    rw [toList_number_of_le style (by omega), List.length_append, mark]
    omega

theorem number_inj {first second : Nat} (same : style.number first = style.number second) :
    first = second := by
  have sizes : first < 10 ↔ second < 10 := by
    rw [← length_number_eq_one_iff style, same, length_number_eq_one_iff]
  have chars := congrArg String.toList same
  by_cases small : first < 10
  · rw [toList_number_of_lt style small, toList_number_of_lt style (sizes.mp small)] at chars
    exact Text.hexDigits_inj chars
  · rw [toList_number_of_le style (by omega), toList_number_of_le style (by omega)] at chars
    exact Text.hexDigits_inj (List.append_cancel_left chars)

theorem wordKind_number (value : Nat) : wordKind (style.number value) = .relative .bits8 := by
  unfold wordKind
  apply if_neg
  apply Bool.eq_false_iff.mp
  by_cases small : value < 10
  · have digit : ∀ digit < 10, digit.digitChar.toUpper.isLower = false := by decide
    rw [toList_number_of_lt style small, Text.hexDigits_of_lt (by omega)]
    exact digit value small
  · rw [toList_number_of_le style (by omega)]
    cases style <;> rfl

def numeral (value : Nat) : Word := ⟨style.number value, style.isWord_number value⟩

end Assembly.Style

def Register.spelled (register : Register) : Word := ⟨register.name, register.isWord_name⟩

def FieldWidth.spelled (field : FieldWidth) : Word :=
  ⟨Text.decimal field.bits, by cases field <;> decide⟩

theorem FieldWidth.suffix_eq (field : FieldWidth) :
    field.suffix = ":" ++ Text.decimal field.bits := by
  cases field <;> rfl

def signTokens (value : Int) : List Token := if value < 0 then [.mark .minus] else []

def Operand.tokens (style : Style) : Operand → List Token
  | .register name => [.word name.spelled]
  | .registerList first count =>
    [.mark .left, .word first.spelled, .mark .minus, .word (lastRegister first count).spelled,
      .mark .right]
  | .immediate value _ => [.mark .number, .word (style.numeral value)]
  | .bit number => [.mark .number, .word (style.numeral number)]
  | .absolute address field =>
    [.mark .address, .word (style.numeral address.toNat), .mark .colon, .word field.spelled]
  | .indirect base => [.mark .address, .word base.spelled]
  | .displaced base displacement field =>
    .mark .address :: .mark .left :: signTokens displacement ++
      [.word (style.numeral displacement.natAbs), .mark .colon, .word field.spelled,
        .mark .comma, .word base.spelled, .mark .right]
  | .postIncrement base => [.mark .address, .word base.spelled, .mark .plus]
  | .preDecrement base => [.mark .address, .mark .minus, .word base.spelled]
  | .relative target _ .bits8 => [.word (style.numeral target.toNat)]
  | .relative target _ field =>
    [.word (style.numeral target.toNat), .mark .colon, .word field.spelled]
  | .vector slot =>
    [.mark .address, .mark .address, .word (style.numeral (UInt32.ofNat slot).toNat), .mark .colon,
      .word FieldWidth.bits8.spelled]

section
variable (style : Style)

@[simp] theorem Register.chars_spelled (register : Register) :
    (Token.word register.spelled).chars = register.name.toList := rfl

@[simp] theorem FieldWidth.chars_spelled (field : FieldWidth) :
    (Token.word field.spelled).chars = (Text.decimal field.bits).toList := rfl

@[simp] theorem Assembly.Style.chars_numeral (value : Nat) :
    (Token.word (style.numeral value)).chars = (style.number value).toList := rfl

theorem toList_term (isTransfer : Bool) (operand : Operand) :
    (style.term (operandTerm (fun _ => none) isTransfer operand)).toList =
      spell (operand.tokens style) := by
  cases operand with
  | absolute address field =>
    cases isTransfer <;>
      simp [operandTerm, addressTerm, Term.codePointer, Term.dataPointer, Style.term,
        Style.literal, Operand.tokens, Mark.char, FieldWidth.suffix_eq]
  | displaced base displacement field =>
    by_cases negative : displacement < 0 <;>
      simp [operandTerm, registerTerm, Style.term, Style.termList, Style.literal, Operand.tokens,
        signTokens, negative, Mark.char, FieldWidth.suffix_eq]
  | relative target displacement field =>
    cases field <;>
      simp [operandTerm, Term.codePointer, Style.term, Style.literal, Operand.tokens, Mark.char,
        FieldWidth.suffix_eq]
  | vector slot =>
    have suffix : ":8" = ":" ++ Text.decimal FieldWidth.bits8.bits := FieldWidth.suffix_eq .bits8
    simp [operandTerm, Term.dataPointer, Style.term, Style.literal, Operand.tokens, Mark.char,
      suffix]
  | _ =>
    simp [operandTerm, registerTerm, Style.term, Style.termList, Style.literal, Operand.tokens,
      Mark.char]

end

def operandOutlines : List (List (Option Mark)) := [
  [none],
  [none, some .colon, none],
  [some .number, none],
  [some .left, none, some .minus, none, some .right],
  [some .address, none],
  [some .address, none, some .plus],
  [some .address, some .minus, none],
  [some .address, none, some .colon, none],
  [some .address, some .address, none, some .colon, none],
  [some .address, some .left, none, some .colon, none, some .comma, none, some .right],
  [some .address, some .left, some .minus, none, some .colon, none, some .comma, none, some .right]]

theorem Operand.outline_mem (style : Style) (operand : Operand) :
    (operand.tokens style).map Token.mark? ∈ operandOutlines := by
  cases operand with
  | displaced base displacement field =>
    by_cases negative : displacement < 0 <;>
      simp [tokens, signTokens, negative, Token.mark?, operandOutlines]
  | relative target displacement field =>
    cases field <;> simp [tokens, Token.mark?, operandOutlines]
  | _ => simp [tokens, Token.mark?, operandOutlines]

theorem Operand.spaced_tokens (style : Style) (operand : Operand) :
    Spaced (operand.tokens style) := by
  have spaced : ∀ outline ∈ operandOutlines,
      outline.IsChain fun first second => first.isSome ∨ second.isSome := by decide
  exact spaced _ (operand.outline_mem style)

def operandEnds : List Mark := [.comma, .newline]

/-- No outline with its end is the beginning of another. -/
theorem outline_eq_of_isPrefix : ∀ first ∈ operandOutlines, ∀ second ∈ operandOutlines,
    ∀ mark ∈ operandEnds, ∀ other ∈ operandEnds,
      first ++ [some mark] <+: second ++ [some other] → first = second := by
  decide

theorem Operand.outline_isPrefix (style : Style) (operand : Operand) (mark : Mark)
    (rest : List Token) : (operand.tokens style).map Token.mark? ++ [some mark] <+:
      (operand.tokens style ++ .mark mark :: rest).map Token.mark? :=
  ⟨rest.map Token.mark?, by simp [Token.mark?]⟩

/-- The end of an operand is found from its tokens alone. -/
theorem Operand.tokens_append_inj {style : Style} {first second : Operand} {mark other : Mark}
    {rest more : List Token} (left : mark ∈ operandEnds) (right : other ∈ operandEnds)
    (same : first.tokens style ++ .mark mark :: rest = second.tokens style ++ .mark other :: more) :
    first.tokens style = second.tokens style ∧ mark = other ∧ rest = more := by
  have outline : (first.tokens style).map Token.mark? = (second.tokens style).map Token.mark? := by
    have front := first.outline_isPrefix style mark rest
    have alsoFront := second.outline_isPrefix style other more
    rw [← same] at alsoFront
    -- Both start the same list, so one of them begins the other.
    rcases List.prefix_or_prefix_of_prefix front alsoFront with shorter | longer
    · exact outline_eq_of_isPrefix _ (first.outline_mem style) _ (second.outline_mem style)
        _ left _ right shorter
    · exact (outline_eq_of_isPrefix _ (second.outline_mem style) _ (first.outline_mem style)
        _ right _ left longer).symm
  have lengths := congrArg List.length outline
  rw [List.length_map, List.length_map] at lengths
  obtain ⟨tokens, rests⟩ := List.append_inj same lengths
  obtain ⟨marks, tails⟩ := List.cons.inj rests
  exact ⟨tokens, Token.mark.inj marks, tails⟩

def Assembly.Word.field (word : Word) : FieldWidth :=
  if word.text = "8" then .bits8 else if word.text = "16" then .bits16 else .bits24

def fieldIn : List Token → FieldWidth
  | .mark .colon :: .word width :: _ => width.field
  | _ :: rest => fieldIn rest
  | [] => .bits8

def memoryKind : List Token → Kind
  | [.word _] => .indirect
  | [.word _, _] => .increment
  | .word _ :: rest => .absolute (fieldIn rest)
  | .mark .minus :: _ => .decrement
  | .mark .left :: rest => .displaced (fieldIn rest)
  | _ => .vector

def kindIn : List Token → Kind
  | [.word name] => wordKind name.text
  | .mark .left :: _ => .list
  | .mark .number :: _ => .immediate .byte
  | .mark _ :: rest => memoryKind rest
  | tokens => .relative (fieldIn tokens)

theorem FieldWidth.field_spelled (field : FieldWidth) : field.spelled.field = field.plain := by
  cases field <;> decide

theorem Operand.kindIn_tokens (style : Style) (operand : Operand) :
    kindIn (operand.tokens style) = operand.kind.shown := by
  cases operand with
  | register name => exact name.wordKind_name
  | absolute address field => exact congrArg Kind.absolute field.field_spelled
  | displaced base displacement field =>
    by_cases negative : displacement < 0 <;>
      simp [tokens, signTokens, negative, kindIn, memoryKind, fieldIn, field.field_spelled, kind,
        Kind.shown]
  | relative target displacement field =>
    cases field with
    | bits8 => exact style.wordKind_number target.toNat
    | _ => simp [tokens, kindIn, fieldIn, FieldWidth.field_spelled, kind, Kind.shown]
  | _ => rfl

end H8
