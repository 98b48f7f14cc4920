import H8.Text.Blank
import Mathlib.Data.List.TakeWhile

/-! The lines of a text and the words of a line.

A text is cut at its line ends, and a line where its characters change from
blanks to others or back. What the readers of lines and words give is said here
by the pieces, not by how they are found.
-/

set_option autoImplicit false

namespace H8.Text

def IsGap (text : List Char) : Prop := ∀ c ∈ text, isBlank c = true

theorem isGap_nil : IsGap [] := List.forall_mem_nil _

def IsWord (text : List Char) : Prop := text ≠ [] ∧ ∀ c ∈ text, isBlank c = false

def IsTrimmed (text : List Char) : Prop :=
  (∀ c ∈ text.head?, isBlank c = false) ∧ ∀ c ∈ text.getLast?, isBlank c = false

inductive Begins : List Char → List Char → List Char → Prop
  | intro {before word gap rest after : List Char} (solid : IsWord word) (trimmed : IsTrimmed rest)
      (blank : IsGap before ∧ IsGap gap ∧ IsGap after) (apart : rest ≠ [] → gap ≠ []) :
      Begins (before ++ (word ++ (gap ++ rest ++ after))) word rest

variable {text rest line word front : List Char}

/-- The cut at the first character that a test refuses is the only one with
accepted characters in front and a refused one behind. -/
theorem cut_iff {test : Char → Bool} : text.takeWhile test = front ∧ text.dropWhile test = rest ↔
    text = front ++ rest ∧ (∀ c ∈ front, test c = true) ∧ ∀ c ∈ rest.head?, test c = false := by
  constructor
  · rintro ⟨rfl, rfl⟩
    refine ⟨List.takeWhile_append_dropWhile.symm, fun c => List.mem_takeWhile_imp, fun c first => ?_⟩
    have refused := List.head?_dropWhile_not test text
    rw [first] at refused
    simpa using refused
  · rintro ⟨rfl, accepted, refused⟩
    have stop : rest.takeWhile test = [] ∧ rest.dropWhile test = rest := by
      cases rest with
      | nil => exact ⟨rfl, rfl⟩
      | cons c rest => simp [refused c rfl]
    rw [List.takeWhile_append_of_pos accepted, List.dropWhile_append_of_pos accepted, stop.1, stop.2]
    exact ⟨List.append_nil front, rfl⟩

theorem trimStart_eq_iff : trimStart text = rest ↔
    ∃ gap, IsGap gap ∧ text = gap ++ rest ∧ ∀ c ∈ rest.head?, isBlank c = false := by
  constructor
  · intro trimmed
    obtain ⟨whole, blank, stop⟩ := cut_iff.mp ⟨rfl, trimmed⟩
    exact ⟨_, blank, whole, stop⟩
  · rintro ⟨gap, blank, whole, stop⟩
    exact (cut_iff.mpr ⟨whole, blank, stop⟩).2

theorem trimEnd_eq_iff : trimEnd text = rest ↔
    ∃ gap, IsGap gap ∧ text = rest ++ gap ∧ ∀ c ∈ rest.getLast?, isBlank c = false := by
  have reversed : trimEnd text = rest ↔ trimStart text.reverse = rest.reverse := by
    rw [trimEnd, trimStart, List.reverse_eq_iff]
  rw [reversed, trimStart_eq_iff, List.head?_reverse]
  constructor
  · rintro ⟨gap, blank, whole, stop⟩
    refine ⟨gap.reverse, fun c member => blank c (List.mem_reverse.mp member), ?_, stop⟩
    simpa using congrArg List.reverse whole
  · rintro ⟨gap, blank, rfl, stop⟩
    exact ⟨gap.reverse, fun c member => blank c (List.mem_reverse.mp member), by simp, stop⟩

theorem trim_eq_iff : trim text = rest ↔
    ∃ before after, IsGap before ∧ IsGap after ∧ text = before ++ rest ++ after ∧ IsTrimmed rest := by
  unfold trim
  constructor
  · intro trimmed
    obtain ⟨before, blank, whole, first⟩ := trimStart_eq_iff.mp (rfl : trimStart text = _)
    obtain ⟨after, blank', whole', last⟩ := trimEnd_eq_iff.mp trimmed
    refine ⟨before, after, blank, blank', by rw [List.append_assoc, ← whole', ← whole], ?_, last⟩
    intro c head
    refine first c ?_
    rw [whole', List.head?_append]
    simp [Option.mem_def.mp head]
  · rintro ⟨before, after, blank, blank', rfl, first, last⟩
    cases rest with
    | nil =>
      -- Nothing but blanks: both gaps go at once.
      have gap : IsGap (before ++ after) := fun c member =>
        (List.mem_append.mp member).elim (blank c) (blank' c)
      have none : trimStart (before ++ [] ++ after) = [] :=
        trimStart_eq_iff.mpr ⟨before ++ after, gap, by simp, by simp⟩
      rw [none]
      rfl
    | cons c rest =>
      have start : trimStart (before ++ c :: rest ++ after) = c :: rest ++ after :=
        trimStart_eq_iff.mpr ⟨before, blank, by simp, first⟩
      rw [start]
      exact trimEnd_eq_iff.mpr ⟨after, blank', rfl, last⟩

theorem trim_of_solid {before after : List Char} (blank : IsGap before) (blank' : IsGap after)
    (solid : ∀ c ∈ text, isBlank c = false) : trim (before ++ text ++ after) = text :=
  trim_eq_iff.mpr ⟨before, after, blank, blank', rfl,
    fun c head => solid c (List.mem_of_mem_head? head),
    fun c last => solid c (List.mem_of_mem_getLast? last)⟩

theorem trim_eq_self (solid : ∀ c ∈ text, isBlank c = false) : trim text = text := by
  simpa using trim_of_solid isGap_nil isGap_nil solid

theorem nextWord?_eq_none_iff : nextWord? line = none ↔ IsGap line := by
  unfold nextWord?
  split
  · next empty => simpa [trimStart, IsGap] using empty
  · next nonempty => simpa [trimStart, IsGap] using nonempty

theorem eq_nil_of_head? (blank : ∀ c ∈ text.head?, isBlank c = true)
    (solid : ∀ c ∈ text.head?, isBlank c = false) : text = [] := by
  cases text with
  | nil => rfl
  | cons c text => exact absurd (blank c rfl) (by simp [solid c rfl])

theorem nextWord?_eq_some_iff_cut : nextWord? line = some (word, rest) ↔ trimStart line ≠ [] ∧
    (trimStart line).takeWhile (!isBlank ·) = word ∧
      trim ((trimStart line).dropWhile (!isBlank ·)) = rest := by
  unfold nextWord?
  split
  · next empty => simp [empty]
  · next nonempty => simp [show trimStart line ≠ [] from nonempty]

theorem begins_of_nextWord? (found : nextWord? line = some (word, rest)) : Begins line word rest := by
  obtain ⟨nonempty, first, trimmed⟩ := nextWord?_eq_some_iff_cut.mp found
  obtain ⟨before, blank, whole, start⟩ := trimStart_eq_iff.mp (rfl : trimStart line = _)
  obtain ⟨whole', solid, stop⟩ := cut_iff.mp ⟨first, rfl⟩
  obtain ⟨gap, after, inner, outer, tail, trimmed⟩ := trim_eq_iff.mp trimmed
  rw [tail] at whole' stop
  rw [whole, whole']
  refine .intro ⟨?_, by simpa using solid⟩ trimmed ⟨blank, inner, outer⟩ ?_
  · rintro rfl
    rw [List.nil_append] at whole'
    rw [whole'] at start nonempty
    exact nonempty (eq_nil_of_head? (by simpa using stop) start)
  · -- Behind the word stands a blank, and the rest begins with none.
    rintro some rfl
    refine some (eq_nil_of_head? (fun c head => ?_) trimmed.1)
    have head : ([] ++ rest ++ after).head? = .some c := by simp [Option.mem_def.mp head]
    simpa using stop c head

theorem nextWord?_of_begins (begins : Begins line word rest) : nextWord? line = some (word, rest) := by
  obtain ⟨solid, trimmed, ⟨blank, inner, outer⟩, apart⟩ := begins
  next before gap after =>
  obtain ⟨first, others, rfl⟩ := List.exists_cons_of_ne_nil solid.1
  have start : trimStart (before ++ (first :: others ++ (gap ++ rest ++ after))) =
      first :: others ++ (gap ++ rest ++ after) := by
    refine trimStart_eq_iff.mpr ⟨before, blank, rfl, ?_⟩
    rintro c ⟨⟩
    exact solid.2 first List.mem_cons_self
  have letters : ∀ c ∈ first :: others, (!isBlank c) = true := fun c member => by
    simp [solid.2 c member]
  have stop : ∀ c ∈ (gap ++ rest ++ after).head?, (!isBlank c) = false := by
    intro c head
    cases gap with
    | cons blank gap => simp [inner c (List.mem_of_mem_head? head)]
    | nil =>
      obtain rfl : rest = [] := by simpa using apart
      simp [outer c (List.mem_of_mem_head? head)]
  obtain ⟨front, tail⟩ := cut_iff.mpr ⟨rfl, letters, stop⟩
  rw [nextWord?_eq_some_iff_cut, start, tail]
  exact ⟨List.cons_ne_nil _ _, front, trim_eq_iff.mpr ⟨gap, after, inner, outer, rfl, trimmed⟩⟩

theorem nextWord?_eq_some_iff : nextWord? line = some (word, rest) ↔ Begins line word rest :=
  ⟨begins_of_nextWord?, nextWord?_of_begins⟩

/-! ### Lines -/

/-- A line ends at a line feed, or at a carriage return and a line feed. Only the
last one may end with the text. -/
inductive Divided : List Char → List (List Char) → Prop
  | empty : Divided [] []
  | last {line : List Char} (nonempty : line ≠ []) (unbroken : '\n' ∉ line) : Divided line [line]
  | feed {line rest : List Char} {others : List (List Char)} (unbroken : '\n' ∉ line)
      (bare : line.getLast? ≠ some '\r') (divided : Divided rest others) :
      Divided (line ++ '\n' :: rest) (line :: others)
  | returnFeed {line rest : List Char} {others : List (List Char)} (unbroken : '\n' ∉ line)
      (divided : Divided rest others) : Divided (line ++ ['\r'] ++ '\n' :: rest) (line :: others)

theorem lines_of_not_mem (nonempty : line ≠ []) (unbroken : '\n' ∉ line) : lines line = [line] := by
  obtain ⟨first, others, rfl⟩ := List.exists_cons_of_ne_nil nonempty
  rw [lines, List.splitOn_eq_singleton unbroken]
  rfl

theorem lines_append (rest : List Char) (unbroken : '\n' ∉ line) : lines (line ++ '\n' :: rest) =
    (if line.getLast? = some '\r' then line.dropLast else line) :: lines rest := by
  obtain ⟨piece, pieces, split⟩ := List.exists_cons_of_ne_nil (List.splitOn_ne_nil '\n' rest)
  have last : (line :: piece :: pieces).getLast? = (piece :: pieces).getLast? :=
    List.getLast?_cons_cons
  simp only [lines, List.splitOn_append_cons_self, List.splitOn_eq_singleton unbroken, split,
    List.singleton_append, List.dropLast_cons_cons, List.map_cons, last]
  split <;> rfl

theorem Divided.lines_eq {pieces : List (List Char)} (divided : Divided text pieces) :
    lines text = pieces := by
  induction divided with
  | empty => rfl
  | last nonempty unbroken => exact lines_of_not_mem nonempty unbroken
  | feed unbroken bare _ ih => rw [lines_append _ unbroken, if_neg bare, ih]
  | returnFeed unbroken _ ih =>
    rw [lines_append _ (by simpa using unbroken), if_pos (by simp), List.dropLast_concat, ih]

theorem divided_lines (text : List Char) : Divided text (lines text) := by
  by_cases broken : '\n' ∈ text
  · obtain ⟨line, rest, whole, unbroken⟩ := List.eq_append_cons_of_mem broken
    have shorter : rest.length < text.length := by
      rw [whole, List.length_append, List.length_cons]
      omega
    have others := divided_lines rest
    rw [whole, lines_append rest unbroken]
    split
    · next ends =>
      obtain ⟨front, rfl⟩ := List.getLast?_eq_some_iff.mp ends
      rw [List.dropLast_concat]
      exact .returnFeed (fun inside => unbroken (List.mem_append_left _ inside)) others
    · next bare => exact .feed unbroken bare others
  · cases text with
    | nil => exact .empty
    | cons c text =>
      have nonempty := List.cons_ne_nil c text
      rw [lines_of_not_mem nonempty broken]
      exact .last nonempty broken
termination_by text.length

theorem lines_eq_iff {pieces : List (List Char)} : lines text = pieces ↔ Divided text pieces :=
  ⟨fun same => same ▸ divided_lines text, Divided.lines_eq⟩

/-! ### Words -/

/-- Words are the longest runs without blanks, with gaps around and between them. -/
inductive Worded : List Char → List (List Char) → Prop
  | gap {text : List Char} (blank : IsGap text) : Worded text []
  | word {gap word rest : List Char} {others : List (List Char)} (blank : IsGap gap)
      (solid : IsWord word) (apart : ∀ c ∈ rest.head?, isBlank c = true) (worded : Worded rest others) :
      Worded (gap ++ (word ++ rest)) (word :: others)

theorem words_gap_append {gap : List Char} (blank : IsGap gap) (rest : List Char) :
    words (gap ++ rest) = words rest := by
  induction gap with
  | nil => rfl
  | cons c gap ih =>
    obtain ⟨first, others⟩ := List.forall_mem_cons.mp blank
    rw [← ih others]
    simp [words, joinWord, first]

/-- The flag is down in front of a blank and at the end. -/
theorem foldr_joinWord_of_apart (apart : ∀ c ∈ rest.head?, isBlank c = true) :
    rest.foldr joinWord (false, []) = (false, words rest) := by
  cases rest with
  | nil => rfl
  | cons c rest => simp [words, joinWord, apart c rfl]

theorem foldr_joinWord_append (solid : IsWord word) (apart : ∀ c ∈ rest.head?, isBlank c = true) :
    (word ++ rest).foldr joinWord (false, []) = (true, word :: words rest) := by
  obtain ⟨nonempty, letters⟩ := solid
  induction word with
  | nil => contradiction
  | cons c word ih =>
    obtain ⟨first, others⟩ := List.forall_mem_cons.mp letters
    rw [List.cons_append, List.foldr_cons]
    cases word with
    | nil => simp [foldr_joinWord_of_apart apart, joinWord, first]
    | cons second word =>
      rw [ih (List.cons_ne_nil _ _) others]
      simp [joinWord, first]

theorem Worded.words_eq {pieces : List (List Char)} (worded : Worded text pieces) :
    words text = pieces := by
  induction worded with
  | gap blank => simpa [words] using words_gap_append blank []
  | word blank solid apart _ ih => rw [words_gap_append blank, words, foldr_joinWord_append solid apart, ih]

theorem exists_worded (text : List Char) : ∃ pieces, Worded text pieces := by
  obtain ⟨gap, blank, whole, start⟩ := trimStart_eq_iff.mp (rfl : trimStart text = _)
  obtain ⟨word, rest, cut, letters, stop⟩ : ∃ word rest, trimStart text = word ++ rest ∧
      (∀ c ∈ word, isBlank c = false) ∧ ∀ c ∈ rest.head?, isBlank c = true := by
    obtain ⟨cut, letters, stop⟩ := cut_iff.mp ⟨(rfl : (trimStart text).takeWhile (!isBlank ·) = _), rfl⟩
    exact ⟨_, _, cut, by simpa using letters, by simpa using stop⟩
  rw [cut] at whole start
  by_cases empty : word = []
  · -- The rest begins neither with a blank nor with anything else.
    rw [empty, List.nil_append] at whole start
    rw [eq_nil_of_head? stop start, List.append_nil] at whole
    exact ⟨[], whole ▸ .gap blank⟩
  · have shorter : rest.length < text.length := by
      have positive := List.length_pos_iff.mpr empty
      rw [whole, List.length_append, List.length_append]
      omega
    obtain ⟨others, worded⟩ := exists_worded rest
    exact ⟨word :: others, whole ▸ .word blank ⟨empty, letters⟩ stop worded⟩
termination_by text.length

theorem words_eq_iff {pieces : List (List Char)} : words text = pieces ↔ Worded text pieces := by
  refine ⟨fun same => ?_, Worded.words_eq⟩
  obtain ⟨others, worded⟩ := exists_worded text
  rwa [← same, worded.words_eq]

end H8.Text
