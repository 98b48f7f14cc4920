import H8.Text.Numeral

/-! Reading JSON from bytes.

The text is read from front to back and the first fault ends the reading, so
that a text that ends too early is told from one that is wrong. A reader takes
what is left of the text and gives a value and the text after it. All loops
are instances of one, which is bounded by the length of the text: each round
that goes on takes a byte.
-/

set_option autoImplicit false

namespace H8.Json

inductive ReadError where
  /-- The text ends inside a value. -/
  | unexpectedEnd
  /-- The text is no JSON, or not the JSON that is asked for. -/
  | malformed
  deriving DecidableEq, Repr

abbrev Bytes := List UInt8

abbrev Reader (Value : Type) := Bytes → Except ReadError (Value × Bytes)

namespace Reader

def map {Value Changed : Type} (change : Value → Changed) (reader : Reader Value) :
    Reader Changed := fun input => do
  let (value, rest) ← reader input
  .ok (change value, rest)

def refine {Value Changed : Type} (change : Value → Option Changed) (reader : Reader Value) :
    Reader Changed := fun input => do
  let (value, rest) ← reader input
  match change value with
  | some changed => .ok (changed, rest)
  | none => .error .malformed

inductive Loop (State Value : Type) where
  | again (state : State)
  | done (value : Value)

def repeatStep {State Value : Type} (step : State → Reader (Loop State Value)) :
    (fuel : Nat) → State → Reader Value
  | 0, _, _ => .error .unexpectedEnd
  | fuel + 1, state, input =>
    match step state input with
    | .error error => .error error
    | .ok (.done value, rest) => .ok (value, rest)
    | .ok (.again state, rest) => repeatStep step fuel state rest

def iterate {State Value : Type} (step : State → Reader (Loop State Value)) (state : State) :
    Reader Value :=
  fun input => repeatStep step (input.length + 1) state input

/-- A byte as an ASCII character. The others give characters that never occur
in the grammar. -/
def toChar (byte : UInt8) : Char := Char.ofNat byte.toNat

def isBlank (byte : UInt8) : Bool :=
  byte = 0x20 || byte = 0x09 || byte = 0x0A || byte = 0x0D

def skipBlanks (input : Bytes) : Bytes := input.dropWhile isBlank

def nextChar : Reader Char
  | [] => .error .unexpectedEnd
  | byte :: rest => .ok (toChar byte, rest)

def nextToken : Reader Char := fun input => nextChar (skipBlanks input)

def word : List Char → Reader Unit
  | [], input => .ok ((), input)
  | expected :: more, input => do
    let (c, rest) ← nextChar input
    if c = expected then word more rest else .error .malformed

/-- Take four hexadecimal digits. They are judged when all four are there. -/
def hexCode : Reader Nat := fun input => do
  let (a, rest) ← nextChar input
  let (b, rest) ← nextChar rest
  let (c, rest) ← nextChar rest
  let (d, rest) ← nextChar rest
  match Text.digitsValue? 16 [a, b, c, d] with
  | some code => .ok (code, rest)
  | none => .error .malformed

/-- The character that an escape by number stands for. Characters beyond
16 bits are written as two surrogates, which stand together only. -/
def codeEscape : Reader Char := fun input => do
  let (code, rest) ← hexCode input
  if 0xDC00 ≤ code && code ≤ 0xDFFF then .error .malformed
  else if 0xD800 ≤ code && code ≤ 0xDBFF then
    let (_, rest) ← word ['\\'] rest
    let (_, rest) ← word ['u'] rest
    let (low, rest) ← hexCode rest
    if 0xDC00 ≤ low && low ≤ 0xDFFF then
      .ok (Char.ofNat (0x10000 + (code - 0xD800) * 0x400 + (low - 0xDC00)), rest)
    else .error .malformed
  else .ok (Char.ofNat code, rest)

def plainEscape? : Char → Option Char
  | '"' => some '"'
  | '\\' => some '\\'
  | '/' => some '/'
  | 'b' => some (Char.ofNat 8)
  | 'f' => some (Char.ofNat 12)
  | 'n' => some '\n'
  | 'r' => some '\r'
  | 't' => some '\t'
  | _ => none

def escapeBody : Reader Char := fun input => do
  let (c, rest) ← nextChar input
  if c = 'u' then codeEscape rest
  else match plainEscape? c with
    | some character => .ok (character, rest)
    | none => .error .malformed

def stringStep (done : Array UInt8) : Reader (Loop (Array UInt8) String)
  | [] => .error .unexpectedEnd
  | byte :: rest =>
    if toChar byte = '"' then
      match String.fromUTF8? ⟨done⟩ with
      | some text => .ok (.done text, rest)
      | none => .error .malformed
    else if toChar byte = '\\' then do
      let (c, rest) ← escapeBody rest
      .ok (.again (done ++ (String.utf8EncodeChar c).toArray), rest)
    else if byte < 0x20 then .error .malformed
    else .ok (.again (done.push byte), rest)

def stringBody : Reader String := iterate stringStep #[]

def skipStringStep (_ : Unit) : Reader (Loop Unit Unit)
  | [] => .error .unexpectedEnd
  | byte :: rest =>
    if toChar byte = '"' then .ok (.done (), rest)
    else if toChar byte = '\\' then do
      let (c, rest) ← nextChar rest
      if c = 'u' then
        let (_, rest) ← hexCode rest
        .ok (.again (), rest)
      else if (plainEscape? c).isSome then .ok (.again (), rest)
      else .error .malformed
    else if byte < 0x20 then .error .malformed
    else .ok (.again (), rest)

def skipStringBody : Reader Unit := iterate skipStringStep ()

def digits (input : Bytes) : List Char × Bytes :=
  ((input.takeWhile fun byte => (toChar byte).isDigit).map toChar,
    input.dropWhile fun byte => (toChar byte).isDigit)

/-- One digit at least. The error is the one for a text that ends here. -/
def someDigits (atEnd : ReadError) : Reader Unit := fun input =>
  match digits input with
  | ([], []) => .error atEnd
  | ([], _) => .error .malformed
  | (_, rest) => .ok ((), rest)

def exponentPart (atEnd : ReadError) : Reader Unit := fun input =>
  match input with
  | byte :: rest =>
    if toChar byte = '+' || toChar byte = '-' then someDigits atEnd rest
    else someDigits atEnd input
  | [] => .error atEnd

/-- What may follow the integer part of a number: whether anything does. -/
def numberTail (atEnd : ReadError) : Reader Bool
  | [] => .ok (false, [])
  | byte :: rest =>
    if toChar byte = '.' then do
      let (_, rest) ← someDigits atEnd rest
      match rest with
      | mark :: after =>
        if toChar mark = 'e' || toChar mark = 'E' then
          let (_, rest) ← exponentPart atEnd after
          .ok (true, rest)
        else .ok (true, rest)
      | [] => .ok (true, rest)
    else if toChar byte = 'e' || toChar byte = 'E' then do
      let (_, rest) ← exponentPart atEnd rest
      .ok (true, rest)
    else .ok (false, byte :: rest)

/-- A number without its sign: its value if it has neither fraction nor
exponent. A zero in front of other digits is refused. -/
def unsignedNumber (atEnd : ReadError) : Reader (Option Nat) := fun input =>
  match digits input with
  | ([], []) => .error atEnd
  | ([], _) => .error .malformed
  | ('0' :: _ :: _, _) => .error .malformed
  | (integer, rest) => do
    let (hasTail, rest) ← numberTail atEnd rest
    .ok (if hasTail then none else Text.digitsValue? 10 integer, rest)

def startsNumber (c : Char) : Bool := c.isDigit

/-- The error for a value of the wrong kind, given its first character and the
text from there on. Scalars are read to their end first. -/
def refusal (first : Char) (input : Bytes) : ReadError :=
  let verdict {Value : Type} (result : Except ReadError (Value × Bytes)) : ReadError :=
    match result with
    | .error error => error
    | .ok _ => .malformed
  let rest := input.drop 1
  if first = 'n' then verdict (word ['u', 'l', 'l'] rest)
  else if first = 't' then verdict (word ['r', 'u', 'e'] rest)
  else if first = 'f' then verdict (word ['a', 'l', 's', 'e'] rest)
  else if first = '"' then verdict (stringBody rest)
  else if first = '-' then verdict (unsignedNumber .unexpectedEnd rest)
  else if startsNumber first then verdict (unsignedNumber .unexpectedEnd input)
  else .malformed

def text : Reader String := fun input => do
  let (first, rest) ← nextToken input
  if first = '"' then stringBody rest else .error (refusal first (skipBlanks input))

def natural32 : Reader Nat := fun input => do
  let (first, _) ← nextToken input
  let start := skipBlanks input
  if startsNumber first then
    let (value?, rest) ← unsignedNumber .unexpectedEnd start
    match value?.filter (· < UInt32.size) with
    | some value => .ok (value, rest)
    | none => .error .malformed
  else .error (refusal first start)

def null : Reader Unit := fun input => do
  let (first, rest) ← nextToken input
  if first = 'n' then word ['u', 'l', 'l'] rest else .error (refusal first (skipBlanks input))

def nullable {Value : Type} (reader : Reader Value) : Reader (Option Value) := fun input => do
  let (first, _) ← nextToken input
  if first = 'n' then map (fun _ => none) null input else map some reader input

/-- A name out of a closed set: as a string, or as an object whose only field
has that name and no value. -/
def variant {Value : Type} (ofName? : String → Option Value) : Reader Value := fun input => do
  let (first, rest) ← nextToken input
  if first = '\x7b' then
    let (value, rest) ← refine ofName? text rest
    let (colon, rest) ← nextToken rest
    if colon ≠ ':' then .error .malformed
    else
      let (_, rest) ← null rest
      let (close, rest) ← nextToken rest
      if close = '\x7d' then .ok (value, rest) else .error .malformed
  else refine ofName? text input

/-- One round over an array: its end with the result so far, or one more
element if there may be one. -/
def elementStep {State Value : Type} (isFirst : Bool) (element? : Option (Reader State))
    (result : Value) : Reader (Loop State Value) := fun input => do
  let (first, rest) ← nextToken input
  if first = ']' then .ok (.done result, rest)
  else match element? with
    | none => .error .malformed
    | some element =>
      if isFirst then map .again element input
      else if first = ',' then
        let (next, _) ← nextToken rest
        if next = ']' then .error .malformed else map .again element rest
      else .error .malformed

def arrayStep {Value : Type} (item : Reader Value) (items : Array Value) :
    Reader (Loop (Array Value) (List Value)) :=
  elementStep items.isEmpty (some (map items.push item)) items.toList

def array {Value : Type} (item : Reader Value) : Reader (List Value) := fun input => do
  let (first, rest) ← nextToken input
  if first = '[' then iterate (arrayStep item) #[] rest
  else .error (refusal first (skipBlanks input))

structure Fields (State : Type) where
  names : List String
  state : State

/-- The name and the value of a field. A name that may not be repeated is
refused as soon as it is read. -/
def nextField {State : Type} (isDistinct : String → Bool) (field : State → String → Reader State)
    (fields : Fields State) : Reader (Fields State) := fun input => do
  let (quote, rest) ← nextToken input
  if quote ≠ '"' then .error .malformed
  else
    let (name, rest) ← stringBody rest
    if isDistinct name && fields.names.contains name then .error .malformed
    else
      let (colon, rest) ← nextToken rest
      if colon ≠ ':' then .error .malformed
      else
        let (state, rest) ← field fields.state name rest
        .ok (⟨name :: fields.names, state⟩, rest)

def objectStep {State : Type} (isDistinct : String → Bool) (field : State → String → Reader State)
    (fields : Fields State) : Reader (Loop (Fields State) State) := fun input => do
  let more : Reader (Loop (Fields State) State) := map .again (nextField isDistinct field fields)
  let (first, rest) ← nextToken input
  if first = '\x7d' then .ok (.done fields.state, rest)
  else if fields.names.isEmpty then more input
  else if first = ',' then more rest
  else .error .malformed

def object {State : Type} (isDistinct : String → Bool) (field : State → String → Reader State)
    (initial : State) : Reader State := fun input => do
  let (first, rest) ← nextToken input
  if first = '\x7b' then iterate (objectStep isDistinct field) ⟨[], initial⟩ rest
  else .error (refusal first (skipBlanks input))

/-- A record in the form of an array that is being read: the fields that may
still come, in their order, and what the others gave. -/
structure Elements (State : Type) where
  isFirst : Bool
  names : List String
  state : State

def recordStep {State : Type} (field : State → String → Reader State) (elements : Elements State) :
    Reader (Loop (Elements State) State) :=
  let next? := match elements.names with
    | [] => none
    | name :: names => some (map (⟨false, names, ·⟩) (field elements.state name))
  elementStep elements.isFirst next? elements.state

/-- A record with fields of the given names: an object, in which none of them
stands twice, or an array of their values in order, which may end early. -/
def record {State : Type} (names : List String) (field : State → String → Reader State)
    (initial : State) : Reader State := fun input => do
  let (first, rest) ← nextToken input
  if first = '[' then iterate (recordStep field) ⟨true, names, initial⟩ rest
  else object names.contains field initial input

inductive Enclosure where
  | array
  | object
  deriving DecidableEq, Repr

def Enclosure.close : Enclosure → Char
  | .array => ']'
  | .object => '\x7d'

inductive Position where
  | opened
  | behind
  deriving DecidableEq, Repr

def skipName : Enclosure → Reader Unit
  | .array, input => .ok ((), input)
  | .object, input => do
    let (quote, rest) ← nextToken input
    if quote ≠ '"' then .error .malformed
    else
      let (_, rest) ← skipStringBody rest
      let (colon, rest) ← nextToken rest
      if colon ≠ ':' then .error .malformed else .ok ((), rest)

def skipStart (around : List Enclosure) : Reader (Position × List Enclosure) := fun input => do
  let (first, rest) ← nextToken input
  let behind {Value : Type} (reader : Reader Value) : Reader (Position × List Enclosure) :=
    map (fun _ => (.behind, around)) reader
  if first = 'n' then behind (word ['u', 'l', 'l']) rest
  else if first = 't' then behind (word ['r', 'u', 'e']) rest
  else if first = 'f' then behind (word ['a', 'l', 's', 'e']) rest
  else if first = '"' then behind skipStringBody rest
  else if first = '-' then behind (unsignedNumber .malformed) rest
  else if startsNumber first then behind (unsignedNumber .malformed) (skipBlanks input)
  else if first = '[' then .ok ((.opened, .array :: around), rest)
  else if first = '\x7b' then .ok ((.opened, .object :: around), rest)
  else .error .malformed

def skipPart (inner : Enclosure) (outer : List Enclosure) : Reader (Position × List Enclosure) :=
  fun input => do
    let (_, rest) ← skipName inner input
    skipStart (inner :: outer) rest

def skipStep (place : Position × List Enclosure) :
    Reader (Loop (Position × List Enclosure) Unit) := fun input =>
  match place with
  | (_, []) => .ok (.done (), input)
  | (position, inner :: outer) => do
    let (first, rest) ← nextToken input
    if first = inner.close then .ok (.again (.behind, outer), rest)
    else if position = .opened then map .again (skipPart inner outer) input
    else if first = ',' then map .again (skipPart inner outer) rest
    else .error .malformed

def skipValue : Reader Unit := fun input => do
  let (place, rest) ← skipStart [] input
  iterate skipStep place rest

def readAll {Value : Type} (reader : Reader Value) (input : Bytes) : Except ReadError Value := do
  let (value, rest) ← reader input
  if (skipBlanks rest).isEmpty then .ok value else .error .malformed

end Reader

end H8.Json
