import H8.Ports
import H8.Proofs.Text.Blank

/-! What a line of a port file says.

The grammar of the lines is given apart from their reader: a word decides which
kind of line it is, and a line that fits its kind is an entry of the file. The
reader finds for every line what it says by the grammar, and nothing else.
-/

set_option autoImplicit false

namespace H8

open Text (Begins IsGap)

/-- A text has the name, the address and the comment of a port, in this order. -/
def Port.Spelled (text : List Char) (port : Port) : Prop :=
  ∃ rest number, Begins text port.name.toList rest ∧
    Begins rest number (port.comment.getD "").toList ∧ port.comment ≠ some "" ∧
      Input.number? number = some port.address.toNat

theorem Text.readNumeral?_lt {radix bound value : Nat} {text : List Char}
    (read : readNumeral? radix bound text = some value) : value < bound :=
  of_decide_eq_true (Option.filter_eq_some_iff.mp read).2

theorem Input.number?_lt {text : List Char} {value : Nat} (read : number? text = some value) :
    value < UInt32.size := by
  unfold number? at read
  dsimp only at read
  split at read <;> exact Text.readNumeral?_lt read

theorem Port.parse?_eq_some_iff {text : List Char} {port : Port} :
    Port.parse? text = some port ↔ Port.Spelled text port := by
  simp only [Port.parse?, Option.bind_eq_bind, Option.bind_eq_some_iff, Prod.exists,
    Text.nextWord?_eq_some_iff, Option.pure_def, Option.some.injEq]
  constructor
  · rintro ⟨name, rest, first, number, comment, second, value, read, rfl⟩
    refine ⟨rest, number, by simpa using first, ?_, ?_, ?_⟩
    · cases comment <;> simpa using second
    · cases comment with
      | nil => simp
      | cons c comment => simp [String.ofList_eq_empty_iff]
    · rw [UInt32.toNat_ofNat_of_lt' (Input.number?_lt read), read]
  · rintro ⟨rest, number, first, second, nonempty, read⟩
    refine ⟨_, rest, first, number, _, second, _, read, ?_⟩
    obtain ⟨name, address, comment⟩ := port
    cases comment with
    | none => simp
    | some comment =>
      have nonempty : comment ≠ "" := fun empty => nonempty (congrArg some empty)
      simp [nonempty]

theorem Port.parse?_eq_none_iff {text : List Char} :
    Port.parse? text = none ↔ ∀ port, ¬ Port.Spelled text port := by
  simp only [← Port.parse?_eq_some_iff, Option.eq_none_iff_forall_ne_some, ne_eq]

namespace Ports.Line

inductive Says (code : List Char) : Line → Prop
  | blank (gap : IsGap code) : Says code .nothing
  | default {rest name more : List Char} (keyword : Begins code ".default".toList rest)
      (named : Begins rest name more) : Says code (.setDefault (String.ofList name))
  | noDefault {rest : List Char} (keyword : Begins code ".default".toList rest) (gap : IsGap rest) :
      Says code .nothing
  | header {name rest : List Char} (dotted : Begins code ('.' :: name) rest)
      (other : '.' :: name ≠ ".default".toList) : Says code (.openSection (String.ofList name))
  | area {rest : List Char} (keyword : Begins code "area".toList rest) : Says code .nothing
  | entry {rest : List Char} {entry : Port} (keyword : Begins code "entry".toList rest)
      (spelled : entry.Spelled rest) : Says code (.entry entry)
  | noEntry {rest : List Char} (keyword : Begins code "entry".toList rest)
      (malformed : ∀ entry, ¬ Port.Spelled rest entry) : Says code .nothing
  | port {word rest : List Char} {port : Port} (first : Begins code word rest)
      (undotted : word.head? ≠ some '.') (notArea : word ≠ "area".toList)
      (notEntry : word ≠ "entry".toList) (spelled : port.Spelled code) : Says code (.port port)
  | noPort {word rest : List Char} (first : Begins code word rest)
      (undotted : word.head? ≠ some '.') (notArea : word ≠ "area".toList)
      (notEntry : word ≠ "entry".toList) (malformed : ∀ port, ¬ Port.Spelled code port) :
      Says code .nothing

def Means (line : List Char) (reading : Line) : Prop :=
  ∃ code comment, line = code ++ comment ∧ ';' ∉ code ∧ (∀ c ∈ comment.head?, c = ';') ∧
    Says code reading

variable {line : List Char} {reading : Line}

theorem says_parse (line : List Char) : Says (line.takeWhile (· ≠ ';')) (parse line) := by
  unfold parse
  generalize line.takeWhile (· ≠ ';') = code
  dsimp only
  -- The keywords are tried in the order of the cases; what is left is a port.
  split
  · next absent => exact .blank (Text.nextWord?_eq_none_iff.mp absent)
  · next keyword rest found =>
    have first := Text.begins_of_nextWord? found
    split
    · next isDefault =>
      subst isDefault
      split
      · next named => exact .default first (Text.begins_of_nextWord? named)
      · next absent => exact .noDefault first (Text.nextWord?_eq_none_iff.mp absent)
    · next notDefault =>
      split
      · exact .header first notDefault
      · next undotted =>
        have undotted : keyword.head? ≠ some '.' := by
          intro dotted
          obtain ⟨name, spelled⟩ := List.head?_eq_some_iff.mp dotted
          exact undotted name spelled
        split_ifs with isArea isEntry
        · exact .area (isArea ▸ first)
        · cases read : Port.parse? rest with
          | none => exact .noEntry (isEntry ▸ first) (Port.parse?_eq_none_iff.mp read)
          | some entry => exact .entry (isEntry ▸ first) (Port.parse?_eq_some_iff.mp read)
        · cases read : Port.parse? code with
          | none => exact .noPort first undotted isArea isEntry (Port.parse?_eq_none_iff.mp read)
          | some port => exact .port first undotted isArea isEntry (Port.parse?_eq_some_iff.mp read)

/-- The keywords leave a line with another first word to the ports. -/
theorem parse_of_begins {word rest : List Char}
    (first : Begins (line.takeWhile (· ≠ ';')) word rest) (undotted : word.head? ≠ some '.')
    (notArea : word ≠ "area".toList) (notEntry : word ≠ "entry".toList) :
    parse line = ((Port.parse? (line.takeWhile (· ≠ ';'))).map Line.port).getD .nothing := by
  have notDefault : word ≠ ".default".toList := by
    rintro rfl
    exact undotted rfl
  simp only [parse, Text.nextWord?_of_begins first, if_neg notDefault]
  split
  · exact absurd rfl undotted
  · rw [if_neg notArea, if_neg notEntry]

theorem Says.parse_eq (said : Says (line.takeWhile (· ≠ ';')) reading) : parse line = reading := by
  cases said with
  | blank gap => simp only [parse, Text.nextWord?_eq_none_iff.mpr gap]
  | default keyword named =>
    simp only [parse, Text.nextWord?_of_begins keyword, Text.nextWord?_of_begins named, if_pos]
  | noDefault keyword gap =>
    simp only [parse, Text.nextWord?_of_begins keyword, Text.nextWord?_eq_none_iff.mpr gap, if_pos]
  | header dotted other => simp only [parse, Text.nextWord?_of_begins dotted, if_neg other]
  | area keyword =>
    simp only [parse, Text.nextWord?_of_begins keyword]
    simp
  | entry keyword spelled =>
    simp only [parse, Text.nextWord?_of_begins keyword, Port.parse?_eq_some_iff.mpr spelled]
    simp
  | noEntry keyword malformed =>
    simp only [parse, Text.nextWord?_of_begins keyword, Port.parse?_eq_none_iff.mpr malformed]
    simp
  | port first undotted notArea notEntry spelled =>
    rw [parse_of_begins first undotted notArea notEntry, Port.parse?_eq_some_iff.mpr spelled]
    rfl
  | noPort first undotted notArea notEntry malformed =>
    rw [parse_of_begins first undotted notArea notEntry, Port.parse?_eq_none_iff.mpr malformed]
    rfl

theorem parse_eq_iff : parse line = reading ↔ Means line reading := by
  constructor
  · rintro rfl
    obtain ⟨whole, plain, stop⟩ := Text.cut_iff.mp ⟨rfl, rfl⟩
    exact ⟨_, _, whole, fun member => by simpa using plain ';' member, by simpa using stop,
      says_parse line⟩
  · rintro ⟨code, comment, whole, plain, stop, said⟩
    have accepted : ∀ c ∈ code, decide (c ≠ ';') = true := fun c member =>
      decide_eq_true fun same => plain (same ▸ member)
    obtain ⟨front, -⟩ := Text.cut_iff.mpr ⟨whole, accepted, fun c head => by simp [stop c head]⟩
    exact Says.parse_eq (front ▸ said)

end Ports.Line

end H8
