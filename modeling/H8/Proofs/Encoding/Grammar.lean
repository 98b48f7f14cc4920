import H8.Encoding.Pattern
import H8.Proofs.Decode.Build
import H8.Proofs.Text.Blank
import H8.Proofs.Text.Numeral

/-! The texts that describe a pattern.

A token is a fixed byte behind its mark, a letter with a count, or one character
for each bit, and the first of these forms that it has is the one that counts.
A text describes a pattern if all its tokens have such a form and together fill
whole bytes. No other text is read.
-/

set_option autoImplicit false

namespace H8.Encoding

def IsRun (token : List Char) : Prop :=
  ∃ letter digits, token = letter :: digits ∧ isFieldLetter letter = true ∧ digits ≠ [] ∧
    ∀ c ∈ digits, c.isDigit = true

inductive Spells : List Char → List Bit → Prop
  | byte {sign digits : List Char} {value : Nat} (plus : sign = [] ∨ sign = ['+'])
      (numeral : Text.IsNumeral 16 digits value) (small : value < 256) :
      Spells (['0', 'x'] ++ (sign ++ digits)) (lowBits 8 value)
  | run {letter : Char} {digits : List Char} {count : Nat} (named : isFieldLetter letter = true)
      (numeral : Text.IsNumeral 10 digits count) (small : count < UInt64.size) :
      Spells (letter :: digits) (List.replicate count (.field letter))
  | single {bits : List Bit} (named : ∀ letter, .field letter ∈ bits → isFieldLetter letter = true)
      (unmarked : ¬ ['0', 'x'] <+: bits.map Bit.char) (plain : ¬ IsRun (bits.map Bit.char)) :
      Spells (bits.map Bit.char) bits

/-- The tokens of a text stand for the bits of a pattern, which fill at least one byte
and leave none unfinished. -/
def Pattern.Describes (text : String) (pattern : Pattern) : Prop :=
  ∃ tokens runs, Text.Worded text.toList tokens ∧ List.Forall₂ Spells tokens runs ∧
    pattern.bits = runs.flatten ∧ 0 < pattern.bits.length ∧ 8 ∣ pattern.bits.length

theorem byteBits_ofNat {value : Nat} (small : value < 256) :
    (byteBits (UInt8.ofNat value)).map .fixed = lowBits 8 value := by
  have same : (UInt8.ofNat value).toNat = value := UInt8.toNat_ofNat_of_lt' small
  rw [byteBits, same]
  rfl

theorem readBit_eq_ok_iff {c : Char} {bit : Bit} : readBit c = .ok bit ↔
    c = bit.char ∧ ∀ letter, bit = .field letter → isFieldLetter letter = true := by
  unfold readBit
  constructor
  · intro read
    split at read
    · next zero =>
      cases read
      exact ⟨zero, fun letter same => by cases same⟩
    · split at read
      · next one =>
        cases read
        exact ⟨one, fun letter same => by cases same⟩
      · split at read
        · next named =>
          cases read
          exact ⟨rfl, fun letter same => by cases same; exact named⟩
        · cases read
  · rintro ⟨rfl, named⟩
    cases bit with
    | fixed value => cases value <;> rfl
    | field letter =>
      have named := named letter rfl
      have zero : letter ≠ '0' := by
        rintro rfl
        exact absurd named (by decide)
      have one : letter ≠ '1' := by
        rintro rfl
        exact absurd named (by decide)
      simp [Bit.char, zero, one, named]

theorem mapM_readBit_eq_ok_iff {token : List Char} {bits : List Bit} :
    token.mapM readBit = .ok bits ↔ token = bits.map Bit.char ∧
      ∀ letter, .field letter ∈ bits → isFieldLetter letter = true := by
  rw [mapM_eq_ok_iff]
  induction bits generalizing token with
  | nil => simp
  | cons bit bits ih =>
    rw [List.forall₂_cons_right_iff]
    constructor
    · rintro ⟨c, rest, first, others, rfl⟩
      obtain ⟨rfl, named⟩ := readBit_eq_ok_iff.mp first
      obtain ⟨rfl, namedRest⟩ := ih.mp others
      refine ⟨rfl, fun letter member => ?_⟩
      rcases List.mem_cons.mp member with same | member
      · exact named letter same.symm
      · exact namedRest letter member
    · rintro ⟨rfl, named⟩
      refine ⟨bit.char, bits.map Bit.char, ?_, ?_, rfl⟩
      · exact readBit_eq_ok_iff.mpr ⟨rfl, fun letter same => named letter (same ▸ List.mem_cons_self)⟩
      · exact ih.mpr ⟨rfl, fun letter member => named letter (List.mem_cons_of_mem bit member)⟩

theorem asRun?_eq_some_iff {token digits : List Char} {letter : Char} :
    asRun? token = some (letter, digits) ↔ token = letter :: digits ∧
      isFieldLetter letter = true ∧ digits ≠ [] ∧ ∀ c ∈ digits, c.isDigit = true := by
  cases token with
  | nil => simp [asRun?]
  | cons first rest =>
    simp only [asRun?, Option.ite_none_right_eq_some, Bool.and_eq_true, Bool.not_eq_true',
      List.isEmpty_eq_false_iff, List.all_eq_true, Option.some.injEq, Prod.mk.injEq, List.cons.injEq]
    constructor
    · rintro ⟨⟨⟨named, nonempty⟩, digits⟩, rfl, rfl⟩
      exact ⟨⟨rfl, rfl⟩, named, nonempty, digits⟩
    · rintro ⟨⟨rfl, rfl⟩, named, nonempty, digits⟩
      exact ⟨⟨⟨named, nonempty⟩, digits⟩, rfl, rfl⟩

theorem asRun?_eq_none_iff {token : List Char} : asRun? token = none ↔ ¬ IsRun token := by
  constructor
  · rintro none ⟨letter, digits, run⟩
    rw [asRun?_eq_some_iff.mpr run] at none
    cases none
  · intro plain
    cases found : asRun? token with
    | none => rfl
    | some run => exact absurd ⟨run.1, run.2, asRun?_eq_some_iff.mp found⟩ plain

theorem isDigit_of_isNumeral {digits : List Char} {value : Nat}
    (numeral : Text.IsNumeral 10 digits value) : digits ≠ [] ∧ ∀ c ∈ digits, c.isDigit = true := by
  obtain ⟨nonempty, values, each, -⟩ := numeral
  refine ⟨nonempty, fun c member => ?_⟩
  obtain ⟨value, found⟩ := exists_of_forall₂ each member
  rw [← Text.isSome_digitValue?_ten, found]
  rfl

theorem readNumeral?_of_isDigit {digits : List Char} {bound value : Nat}
    (all : ∀ c ∈ digits, c.isDigit = true) : Text.readNumeral? 10 bound digits = some value ↔
      Text.IsNumeral 10 digits value ∧ value < bound := by
  rw [Text.readNumeral?_eq_some_iff]
  constructor
  · rintro ⟨sign, rest, rfl, rfl | rfl, numeral, small⟩
    · exact ⟨numeral, small⟩
    · exact absurd (all '+' (by simp)) (by decide)
  · rintro ⟨numeral, small⟩
    exact ⟨[], digits, rfl, .inl rfl, numeral, small⟩

section
variable {token digits : List Char} {letter : Char} {bits : List Bit}

theorem readToken_of_mark : readToken (['0', 'x'] ++ digits) = .ok bits ↔
    ∃ value, Text.readNumeral? 16 256 digits = some value ∧ bits = lowBits 8 value := by
  unfold readToken
  rw [Text.stripMark?_append]
  cases found : Text.readNumeral? 16 256 digits with
  | none => simp [found]
  | some value =>
    obtain ⟨-, -, -, -, -, small⟩ := Text.readNumeral?_eq_some_iff.mp found
    simp [found, byteBits_ofNat small, eq_comm]

theorem readToken_of_run (unmarked : ¬ ['0', 'x'] <+: token)
    (run : asRun? token = some (letter, digits)) : readToken token = .ok bits ↔
      ∃ count, Text.readNumeral? 10 UInt64.size digits = some count ∧
        bits = List.replicate count (.field letter) := by
  unfold readToken
  rw [Text.stripMark?_of_not_isPrefix unmarked, run]
  cases found : Text.readNumeral? 10 UInt64.size digits <;> simp [found, eq_comm]

theorem readToken_of_plain (unmarked : ¬ ['0', 'x'] <+: token) (plain : ¬ IsRun token) :
    readToken token = token.mapM readBit := by
  unfold readToken
  rw [Text.stripMark?_of_not_isPrefix unmarked, asRun?_eq_none_iff.mpr plain]

theorem spells_of_readToken (read : readToken token = .ok bits) : Spells token bits := by
  by_cases marked : ['0', 'x'] <+: token
  · obtain ⟨digits, rfl⟩ := marked
    obtain ⟨value, found, rfl⟩ := readToken_of_mark.mp read
    obtain ⟨sign, digits, rfl, plus, numeral, small⟩ := Text.readNumeral?_eq_some_iff.mp found
    exact .byte plus numeral small
  · by_cases run : IsRun token
    · obtain ⟨letter, digits, form⟩ := run
      obtain ⟨count, found, rfl⟩ :=
        (readToken_of_run marked (asRun?_eq_some_iff.mpr form)).mp read
      obtain ⟨rfl, named, -, all⟩ := form
      obtain ⟨numeral, small⟩ := (readNumeral?_of_isDigit all).mp found
      exact .run named numeral small
    · rw [readToken_of_plain marked run] at read
      obtain ⟨rfl, named⟩ := mapM_readBit_eq_ok_iff.mp read
      exact .single named marked run

theorem Spells.readToken_eq (spelled : Spells token bits) : readToken token = .ok bits := by
  cases spelled with
  | byte plus numeral small =>
    exact readToken_of_mark.mpr
      ⟨_, Text.readNumeral?_eq_some_iff.mpr ⟨_, _, rfl, plus, numeral, small⟩, rfl⟩
  | @run letter digits count named numeral small =>
    obtain ⟨nonempty, all⟩ := isDigit_of_isNumeral numeral
    have unmarked : ¬ ['0', 'x'] <+: letter :: digits := by
      rintro ⟨rest, same⟩
      cases same
      exact absurd named (by decide)
    have form := asRun?_eq_some_iff.mpr ⟨rfl, named, nonempty, all⟩
    exact (readToken_of_run unmarked form).mpr
      ⟨count, (readNumeral?_of_isDigit all).mpr ⟨numeral, small⟩, rfl⟩
  | single named unmarked plain =>
    rw [readToken_of_plain unmarked plain]
    exact mapM_readBit_eq_ok_iff.mpr ⟨rfl, named⟩

end

theorem mapM_readToken_eq_ok_iff {tokens : List (List Char)} {runs : List (List Bit)} :
    tokens.mapM readToken = .ok runs ↔ List.Forall₂ Spells tokens runs := by
  rw [mapM_eq_ok_iff]
  constructor
  · exact List.Forall₂.imp fun _ _ read => spells_of_readToken read
  · exact List.Forall₂.imp fun _ _ spelled => spelled.readToken_eq

namespace Pattern

theorem unfinished_eq_false_iff (bits : List Bit) :
    (bits.isEmpty || decide (bits.length % 8 ≠ 0)) = false ↔ 0 < bits.length ∧ 8 ∣ bits.length := by
  rw [Bool.or_eq_false_iff, List.isEmpty_eq_false_iff, List.length_pos_iff, decide_eq_false_iff_not,
    not_not, Nat.dvd_iff_mod_eq_zero]

/-- Exactly the described patterns are read. -/
theorem parse_eq_ok_iff {text : String} {pattern : Pattern} :
    parse text = .ok pattern ↔ Describes text pattern := by
  unfold parse
  constructor
  · intro read
    cases found : (Text.words text.toList).mapM readToken with
    | error error => simp [found, bind, Except.bind] at read
    | ok runs =>
      simp only [found, bind, Except.bind] at read
      split at read
      · cases read
      · next whole =>
        cases read
        exact ⟨_, runs, Text.words_eq_iff.mp rfl, mapM_readToken_eq_ok_iff.mp found, rfl,
          (unfinished_eq_false_iff _).mp (Bool.eq_false_iff.mpr whole)⟩
  · rintro ⟨words, runs, worded, spelled, same, finished⟩
    obtain rfl := worded.words_eq
    rw [same] at finished
    simp only [mapM_readToken_eq_ok_iff.mpr spelled, bind, Except.bind]
    rw [if_neg (Bool.eq_false_iff.mp ((unfinished_eq_false_iff _).mpr finished)), ← same]

end Pattern

end H8.Encoding
