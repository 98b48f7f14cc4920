/-! Blank characters and words.

A blank is a character with the Unicode property White_Space. Words are
maximal runs of other characters.
-/

set_option autoImplicit false

namespace H8.Text

def blankRanges : List (Nat × Nat) :=
  [(0x0009, 0x000D), (0x0020, 0x0020), (0x0085, 0x0085), (0x00A0, 0x00A0), (0x1680, 0x1680),
    (0x2000, 0x200A), (0x2028, 0x2029), (0x202F, 0x202F), (0x205F, 0x205F), (0x3000, 0x3000)]

def inRanges (ranges : List (Nat × Nat)) (c : Char) : Bool :=
  ranges.any fun range => range.1 ≤ c.toNat && c.toNat ≤ range.2

def isBlank (c : Char) : Bool := inRanges blankRanges c

def trimStart (text : List Char) : List Char := text.dropWhile isBlank

def trimEnd (text : List Char) : List Char := (text.reverse.dropWhile isBlank).reverse

def trim (text : List Char) : List Char := trimEnd (trimStart text)

/-- The first word of a line and what follows it, without surrounding blanks. -/
def nextWord? (line : List Char) : Option (List Char × List Char) :=
  match trimStart line with
  | [] => none
  | text => some (text.takeWhile (!isBlank ·), trim (text.dropWhile (!isBlank ·)))

/-- Put a character in front of a list of words: a blank ends the word that
follows it, any other character joins it. The flag tells whether the text
that was split begins inside a word. -/
def joinWord (c : Char) : Bool × List (List Char) → Bool × List (List Char)
  | (inside, words) =>
    if isBlank c then (false, words)
    else match inside, words with
      | true, word :: rest => (true, (c :: word) :: rest)
      | _, words => (true, [c] :: words)

def words (text : List Char) : List (List Char) := (text.foldr joinWord (false, [])).2

/-- The lines of a text. A line ends at a line feed, and one carriage return
in front of it is dropped; the last line may end without either. -/
def lines (text : List Char) : List (List Char) :=
  let pieces := text.splitOn '\n'
  let ended := pieces.dropLast.map fun line =>
    if line.getLast? = some '\r' then line.dropLast else line
  match pieces.getLast? with
  | none | some [] => ended
  | some last => ended ++ [last]

end H8.Text
