import Mathlib.Data.List.Chain

/-! Assembly text as words and marks.

Names and numbers are words. Where a mark stands between any two of them, the
text determines its tokens.
-/

set_option autoImplicit false

namespace H8.Assembly

/-- Letters, digits, and the quote in the mark of a hexadecimal number. -/
def isWordChar (c : Char) : Bool := c.isAlphanum || c = '\''

def isWord (text : String) : Bool := !text.toList.isEmpty && text.toList.all isWordChar

structure Word where
  text : String
  proper : isWord text = true
  deriving DecidableEq

inductive Mark where
  | space
  | dot
  | comma
  | colon
  | number
  | address
  | left
  | right
  | plus
  | minus
  | newline
  deriving DecidableEq

def Mark.char : Mark → Char
  | .space => ' '
  | .dot => '.'
  | .comma => ','
  | .colon => ':'
  | .number => '#'
  | .address => '@'
  | .left => '('
  | .right => ')'
  | .plus => '+'
  | .minus => '-'
  | .newline => '\n'

inductive Token where
  | word (name : Word)
  | mark (sign : Mark)
  deriving DecidableEq

def Token.chars : Token → List Char
  | .word name => name.text.toList
  | .mark sign => [sign.char]

def Token.mark? : Token → Option Mark
  | .word _ => none
  | .mark sign => some sign

def spell (tokens : List Token) : List Char := tokens.flatMap Token.chars

def Spaced (tokens : List Token) : Prop :=
  (tokens.map Token.mark?).IsChain fun first second => first.isSome ∨ second.isSome

theorem Mark.isWordChar_char (mark : Mark) : isWordChar mark.char = false := by
  cases mark <;> decide

theorem Mark.char_inj {first second : Mark} (same : first.char = second.char) : first = second := by
  revert same
  cases first <;> cases second <;> decide

theorem Word.ne_nil (word : Word) : word.text.toList ≠ [] := by
  have proper := word.proper
  simp only [isWord, Bool.and_eq_true] at proper
  intro empty
  simp [empty] at proper

theorem Word.isWordChar_of_mem (word : Word) : ∀ c ∈ word.text.toList, isWordChar c = true := by
  have proper := word.proper
  simp only [isWord, Bool.and_eq_true, List.all_eq_true] at proper
  exact proper.2

theorem Word.ext {first second : Word} (same : first.text.toList = second.text.toList) :
    first = second := by
  obtain ⟨text, _⟩ := first
  obtain ⟨other, _⟩ := second
  cases String.toList_inj.mp same
  rfl

theorem Token.chars_ne_nil (token : Token) : token.chars ≠ [] := by
  cases token with
  | word name => exact name.ne_nil
  | mark sign => exact List.cons_ne_nil _ _

@[simp] theorem Token.chars_mark (sign : Mark) : (Token.mark sign).chars = [sign.char] := rfl

@[simp] theorem spell_nil : spell [] = [] := rfl

@[simp] theorem spell_cons (token : Token) (tokens : List Token) :
    spell (token :: tokens) = token.chars ++ spell tokens := rfl

@[simp] theorem spell_append (first second : List Token) :
    spell (first ++ second) = spell first ++ spell second :=
  List.flatMap_append

theorem Spaced.append_mark {first second : List Token} {mark : Mark} (left : Spaced first)
    (right : Spaced second) : Spaced (first ++ .mark mark :: second) := by
  unfold Spaced at *
  rw [List.map_append, List.map_cons, List.isChain_append, List.isChain_cons]
  refine ⟨left, ⟨fun _ _ => .inl rfl, right⟩, fun last _ next head => ?_⟩
  cases Option.some.inj head
  exact .inr rfl

theorem Spaced.tail {token : Token} {tokens : List Token} (spaced : Spaced (token :: tokens)) :
    Spaced tokens :=
  List.IsChain.tail spaced

@[simp] theorem takeWhile_spell_mark (sign : Mark) (tokens : List Token) :
    (spell (.mark sign :: tokens)).takeWhile isWordChar = [] := by
  simp [sign.isWordChar_char]

theorem Spaced.takeWhile_spell {name : Word} {tokens : List Token}
    (spaced : Spaced (.word name :: tokens)) :
    (spell (.word name :: tokens)).takeWhile isWordChar = name.text.toList := by
  have stops : (spell tokens).takeWhile isWordChar = [] := by
    cases tokens with
    | nil => rfl
    | cons next tokens =>
      cases next with
      | word other => simp [Spaced, Token.mark?] at spaced
      | mark sign => exact takeWhile_spell_mark sign tokens
  rw [spell_cons, Token.chars, List.takeWhile_append_of_pos name.isWordChar_of_mem, stops,
    List.append_nil]

theorem Spaced.head_eq {token other : Token} {tokens others : List Token}
    (left : Spaced (token :: tokens)) (right : Spaced (other :: others))
    (same : spell (token :: tokens) = spell (other :: others)) : token = other := by
  -- A word is all that can be taken from the front of the text, a mark leaves nothing to take.
  have taken := congrArg (List.takeWhile isWordChar) same
  cases token with
  | word name =>
    rw [left.takeWhile_spell] at taken
    cases other with
    | word otherName =>
      rw [right.takeWhile_spell] at taken
      exact congrArg Token.word (Word.ext taken)
    | mark sign => exact absurd (taken.trans (takeWhile_spell_mark sign others)) name.ne_nil
  | mark sign =>
    rw [takeWhile_spell_mark] at taken
    cases other with
    | word name => exact absurd (taken.trans right.takeWhile_spell).symm name.ne_nil
    | mark otherSign => exact congrArg Token.mark (Mark.char_inj (List.cons.inj same).1)

/-- A spaced text determines its words and marks. -/
theorem spell_inj {first second : List Token} (left : Spaced first) (right : Spaced second)
    (same : spell first = spell second) : first = second := by
  induction first generalizing second with
  | nil =>
    cases second with
    | nil => rfl
    | cons other others => simp [other.chars_ne_nil] at same
  | cons token tokens ih =>
    cases second with
    | nil => simp [token.chars_ne_nil] at same
    | cons other others =>
      obtain rfl := left.head_eq right same
      exact congrArg (token :: ·) (ih left.tail right.tail (List.append_cancel_left same))

end H8.Assembly
