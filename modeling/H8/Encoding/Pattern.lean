import H8.Text.Escape

/-! Bit patterns of encoded instructions.

A pattern describes every bit of an encoding, most significant first: the bit
is fixed, or it belongs to the field named by a letter. Its text is a list of
tokens divided by blanks: `0xHH` is one fixed byte, a letter with a count is
that many bits of its field, and any other token has one character per bit.
A pattern can also be laid out from larger pieces, and be written as text.
-/

set_option autoImplicit false

namespace H8.Encoding

inductive Bit where
  | fixed (value : Bool)
  | field (letter : Char)
  deriving DecidableEq, Repr

structure Pattern where
  bits : List Bit
  deriving DecidableEq, Repr

inductive Match where
  /-- Some fixed bit disagrees. -/
  | mismatch
  /-- Every byte agrees, and the pattern is longer. -/
  | incomplete
  /-- The whole pattern is there and agrees. -/
  | full
  deriving DecidableEq, Repr

inductive PatternError where
  | badByte (token : String)
  | badFieldWidth (token : String)
  | badCharacter (character : Char)
  | badLength (bits : Nat)
  deriving DecidableEq, Repr

def PatternError.message : PatternError → String
  | .badByte token => "bad fixed byte " ++ token
  | .badFieldWidth token => "bad field width " ++ token
  | .badCharacter character => "bad pattern character " ++ Text.shownChar character
  | .badLength bits => "pattern is " ++ Text.decimal bits ++ " bits long"

def byteBits (byte : UInt8) : List Bool :=
  [7, 6, 5, 4, 3, 2, 1, 0].map byte.toNat.testBit

def bytesBits (bytes : List UInt8) : List Bool := bytes.flatMap byteBits

def isFieldLetter (c : Char) : Bool := 'a' ≤ c && c ≤ 'z'

def readBit (c : Char) : Except PatternError Bit :=
  if c = '0' then .ok (.fixed false)
  else if c = '1' then .ok (.fixed true)
  else if isFieldLetter c then .ok (.field c)
  else .error (.badCharacter c)

def asRun? : List Char → Option (Char × List Char)
  | letter :: count =>
    if isFieldLetter letter && !count.isEmpty && count.all Char.isDigit then some (letter, count)
    else none
  | [] => none

/-- The bits that one token stands for. A count has at most 64 bits. -/
def readToken (token : List Char) : Except PatternError (List Bit) :=
  match Text.stripMark? ['0', 'x'] token with
  | some digits =>
    match Text.readNumeral? 16 256 digits with
    | some byte => .ok ((byteBits (UInt8.ofNat byte)).map .fixed)
    | none => .error (.badByte (String.ofList token))
  | none =>
    match asRun? token with
    | some (letter, count) =>
      match Text.readNumeral? 10 UInt64.size count with
      | some length => .ok (List.replicate length (.field letter))
      | none => .error (.badFieldWidth (String.ofList token))
    | none => token.mapM readBit

inductive Piece where
  /-- Eight fixed bits. -/
  | byte (value : Nat)
  /-- Fixed bits, given by their number and value. -/
  | bits (width value : Nat)
  /-- Bits of a field. -/
  | field (letter : Char) (width : Nat)
  deriving DecidableEq, Repr

def lowBits : (width value : Nat) → List Bit
  | 0, _ => []
  | width + 1, value => .fixed (value.testBit width) :: lowBits width value

def Piece.toBits : Piece → List Bit
  | .byte value => lowBits 8 value
  | .bits width value => lowBits width value
  | .field letter width => List.replicate width (.field letter)

def Bit.char : Bit → Char
  | .fixed false => '0'
  | .fixed true => '1'
  | .field letter => letter

namespace Pattern

def ofLayout (layout : List Piece) : Pattern := ⟨layout.flatMap Piece.toBits⟩

/-- Read the text of a pattern. It describes a positive number of whole bytes. -/
def parse (text : String) : Except PatternError Pattern := do
  let tokens ← (Text.words text.toList).mapM readToken
  let bits := tokens.flatten
  if bits.isEmpty || bits.length % 8 ≠ 0 then .error (.badLength bits.length)
  else .ok ⟨bits⟩

def length (pattern : Pattern) : Nat := pattern.bits.length / 8

def admits : Bit → Bool → Bool
  | .fixed value, bit => value == bit
  | .field _, _ => true

def agrees (bits : List Bit) (data : List Bool) : Bool :=
  (List.zipWith admits bits data).all id

def isFixed : Bit → Bool
  | .fixed _ => true
  | .field _ => false

/-- How many bits are fixed: the more, the more specific the pattern. -/
def fixedBits (pattern : Pattern) : Nat := pattern.bits.countP isFixed

def admitsFirst (pattern : Pattern) (byte : UInt8) : Bool :=
  agrees pattern.bits (byteBits byte)

def compare (pattern : Pattern) (bytes : List UInt8) : Match :=
  if !agrees pattern.bits (bytesBits (bytes.take pattern.length)) then .mismatch
  else if bytes.length < pattern.length then .incomplete
  else .full

def hasField (pattern : Pattern) (letter : Char) : Bool :=
  pattern.bits.contains (.field letter)

/-- Where the bits of a field stand, counted in sixteen bits from the most
significant bit of the first byte. -/
def positions (pattern : Pattern) (letter : Char) : List Nat :=
  pattern.bits.zipIdx.filterMap fun (bit, index) =>
    if bit = .field letter then some (index % UInt16.size) else none

/-- A bit of the data; beyond its end all bits are zero. -/
def bitAt (bytes : List UInt8) (position : Nat) : Bool :=
  match bytes[position / 8]? with
  | some byte => byte.toNat.testBit (7 - position % 8)
  | none => false

/-- The value of a field: its bits gathered most significant first, of which
the low 32 are kept. A letter that names no field reads as zero. -/
def field (pattern : Pattern) (bytes : List UInt8) (letter : Char) : Nat :=
  (pattern.positions letter).foldl
    (fun value position => 2 * value + (bitAt bytes position).toNat) 0 % UInt32.size

def leadingRun : List Bit → Nat
  | .field letter :: rest => 1 + (rest.takeWhile (· = .field letter)).length
  | _ => 0

/-- The number of bits that the first token of the text takes: the whole bytes
of one field, or one byte. -/
def tokenLength (bits : List Bit) : Nat := max 8 (8 * (leadingRun bits / 8))

def token (bits : List Bit) : List Char :=
  if bits.all isFixed then
    ['0', 'x'] ++ (Text.paddedHex 2 (bits.foldl (fun value bit =>
      2 * value + (bit == .fixed true).toNat) 0)).toList
  else match bits with
    | .field letter :: rest =>
      if rest.all (· = .field letter) then letter :: Nat.toDigits 10 bits.length
      else bits.map Bit.char
    | _ => bits.map Bit.char

def tokens : List Bit → List (List Char)
  | [] => []
  | first :: rest =>
    token ((first :: rest).take (tokenLength (first :: rest))) ::
      tokens ((first :: rest).drop (tokenLength (first :: rest)))
  termination_by bits => bits.length
  decreasing_by
    have : 8 ≤ tokenLength (first :: rest) := Nat.le_max_left _ _
    simp only [List.length_drop, List.length_cons]
    omega

def text (pattern : Pattern) : String :=
  String.intercalate " " ((tokens pattern.bits).map String.ofList)

end Pattern

end H8.Encoding
