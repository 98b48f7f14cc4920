import H8.Proofs.Assembly.Numbers

/-! Data directives can be read back.

Data is written as a string constant where it reads as text, and byte by byte
otherwise. A reader tells the two forms apart by their words. It finds the end
of a string because quotes inside are escaped, and the elements of byte data
because none of them holds a comma.
-/

set_option autoImplicit false

namespace H8.Assembly

/-- Read a string constant behind its opening quote, up to the quote that closes
it. A backslash takes the character behind it as it is. -/
def readQuoted? : List Char → Option (List Char × List Char)
  | [] => none
  | '"' :: rest => some ([], rest)
  | '\\' :: c :: rest => (readQuoted? rest).map fun (text, rest) => (c :: text, rest)
  | c :: rest => (readQuoted? rest).map fun (text, rest) => (c :: text, rest)

def readByte? (element : List Char) : Option UInt8 :=
  ((Input.number? element).filter (· < UInt8.size)).map UInt8.ofNat

def byteChar (byte : UInt8) : Char := Char.ofNat byte.toNat

/-- A byte of a string constant. Quotes and backslashes are escaped. -/
def escapedByte (byte : UInt8) : List Char :=
  if byteChar byte ∈ ['"', '\'', '\\'] then ['\\', byteChar byte] else [byteChar byte]

def IsPrintableByte (byte : UInt8) : Prop := 0x20 ≤ byte ∧ byte ≤ 0x7E

namespace Style

def textOpening (style : Style) : List Char := ("    " ++ style.spelling.text ++ " \"").toList

def bytesOpening (style : Style) : List Char := ("    " ++ style.spelling.bytes ++ " ").toList

/-- Read the line of a data directive. No line is no data. -/
def readData? (style : Style) (text : List Char) : Option (List UInt8) :=
  if text = [] then some []
  else match Text.stripMark? style.textOpening text with
    | some body =>
      (readQuoted? body).bind fun (chars, rest) =>
        if rest = ['\n'] then some (chars.map fun c => UInt8.ofNat c.toNat) else none
    | none =>
      (Text.stripMark? style.bytesOpening text).bind fun elements =>
        (elements.splitOn ',').mapM readByte?

end Style

section
variable {bytes : List UInt8} {byte : UInt8}

theorem toNat_byteChar (byte : UInt8) : (byteChar byte).toNat = byte.toNat := by
  have small : byte.toNat < 256 := byte.toNat_lt
  have valid : byte.toNat.isValidChar := Or.inl (by omega)
  rw [byteChar, Char.ofNat, dif_pos valid]
  rfl

theorem IsPrintableByte.toNat (printable : IsPrintableByte byte) :
    0x20 ≤ (byteChar byte).toNat ∧ (byteChar byte).toNat ≤ 0x7E := by
  rw [toNat_byteChar]
  exact ⟨UInt8.le_iff_toNat_le.mp printable.1, UInt8.le_iff_toNat_le.mp printable.2⟩

theorem isText_iff : Style.isText bytes = true ↔ 4 ≤ bytes.length ∧ ∀ byte ∈ bytes, IsPrintableByte byte := by
  have last (byte : UInt8) : byte < 0x7F ↔ byte ≤ 0x7E := by
    rw [UInt8.lt_iff_toNat_lt, UInt8.le_iff_toNat_le]
    exact Nat.lt_succ_iff
  rw [Style.isText, Bool.and_eq_true, decide_eq_true_eq, List.all_eq_true]
  simp only [Bool.and_eq_true, decide_eq_true_eq, last]
  rfl

theorem escapeChar_byteChar (printable : IsPrintableByte byte) :
    Text.escapeChar (byteChar byte) = escapedByte byte := by
  obtain ⟨low, high⟩ := printable.toNat
  have other (c : Char) (control : c.toNat < 0x20) : byteChar byte ≠ c := by
    rintro rfl
    omega
  have plain : (decide (0x20 ≤ (byteChar byte).toNat) && decide ((byteChar byte).toNat < 0x7F)) = true := by
    simp [low, Nat.lt_succ_of_le high]
  unfold Text.escapeChar escapedByte
  rw [if_neg (other '\t' (by decide)), if_neg (other '\r' (by decide)), if_neg (other '\n' (by decide)),
    if_pos plain]
  simp only [List.mem_cons, List.not_mem_nil, or_false, Bool.or_eq_true, decide_eq_true_eq]
  grind

theorem readQuoted?_cons {c : Char} (plain : c ≠ '"' ∧ c ≠ '\\') (rest : List Char) :
    readQuoted? (c :: rest) = (readQuoted? rest).map fun (text, rest) => (c :: text, rest) := by
  rw [readQuoted?]
  · exact plain.1
  · rintro - - rfl
    exact absurd rfl plain.2

/-- The closing quote is found because the ones inside are escaped. -/
theorem readQuoted?_escaped (bytes : List UInt8) (rest : List Char) :
    readQuoted? (bytes.flatMap escapedByte ++ '"' :: rest) = some (bytes.map byteChar, rest) := by
  induction bytes with
  | nil => rfl
  | cons byte bytes ih =>
    rw [List.flatMap_cons, List.append_assoc, List.map_cons, escapedByte]
    split
    · simp [readQuoted?, ih]
    · next plain =>
      have plain : byteChar byte ≠ '"' ∧ byteChar byte ≠ '\\' := by
        simp only [List.mem_cons, not_or] at plain
        exact ⟨plain.1, plain.2.2.1⟩
      rw [List.singleton_append, readQuoted?_cons plain, ih]
      rfl

theorem map_toNat_byteChar (bytes : List UInt8) :
    (bytes.map byteChar).map (fun c => UInt8.ofNat c.toNat) = bytes := by
  simp [Function.comp_def, toNat_byteChar]

end

/-! ### Byte by byte -/

namespace Style
variable (style : Style) {bytes : List UInt8}

theorem toList_byte (byte : UInt8) : (style.byte byte).toList = style.spelling.hexMark.toList ++
    (List.replicate (2 - (Text.hex byte.toNat).length) '0' ++ Text.hexDigits byte.toNat) := by
  simp [Style.byte, Text.paddedHex, Text.padLeft, Text.hex]

theorem isWordChar_of_mem_padded {byte : UInt8} {count : Nat} :
    ∀ c ∈ List.replicate count '0' ++ Text.hexDigits byte.toNat, isWordChar c = true := by
  intro c member
  rcases List.mem_append.mp member with zero | digit
  · rw [List.eq_of_mem_replicate zero]
    rfl
  · exact isWordChar_of_mem_hexDigits digit

theorem isWordChar_of_mem_byte (byte : UInt8) : ∀ c ∈ (style.byte byte).toList, isWordChar c = true := by
  rw [toList_byte]
  intro c member
  rcases List.mem_append.mp member with front | digit
  · exact style.isWordChar_of_mem_hexMark c front
  · exact isWordChar_of_mem_padded c digit

theorem number?_byte (byte : UInt8) : Input.number? (style.byte byte).toList = some byte.toNat := by
  have small : byte.toNat < UInt32.size := Nat.lt_trans byte.toNat_lt (by decide)
  rw [toList_byte]
  apply style.number?_of_hexMark isWordChar_of_mem_padded _ small
  rw [Text.digitsValue?_zeros_append (Text.hexDigits_ne_nil _), Text.digitsValue?_hexDigits]

/-- An element is read with its zero and whatever blanks are around it. -/
theorem readByte?_byte {before after : List Char} (blank : Text.IsGap before) (blank' : Text.IsGap after)
    (byte : UInt8) : readByte? (before ++ (style.byte byte).toList ++ after) = some byte := by
  have small : byte.toNat < UInt8.size := byte.toNat_lt
  rw [readByte?, Input.number?_of_gaps blank blank' (style.isWordChar_of_mem_byte byte), number?_byte]
  simp [small]

/-- The elements of byte data with a comma, and in one style a blank, between
them. -/
def elements (bytes : List UInt8) : List Char :=
  style.spelling.separator.toList.intercalate (bytes.map fun byte => (style.byte byte).toList)

theorem exists_separator : ∃ gap, Text.IsGap gap ∧ style.spelling.separator.toList = ',' :: gap := by
  cases style with
  | gas => exact ⟨[' '], List.forall_mem_singleton.mpr (by decide), rfl⟩
  | hew => exact ⟨[], Text.isGap_nil, rfl⟩

theorem elements_singleton (byte : UInt8) : style.elements [byte] = (style.byte byte).toList :=
  List.intercalate_singleton

theorem elements_cons_cons (first second : UInt8) (rest : List UInt8) :
    style.elements (first :: second :: rest) = (style.byte first).toList ++
      style.spelling.separator.toList ++ style.elements (second :: rest) :=
  List.intercalate_cons_cons

theorem comma_not_mem {before after : List Char} (left : Text.IsGap before) (right : Text.IsGap after)
    (byte : UInt8) : ',' ∉ before ++ (style.byte byte).toList ++ after := by
  intro member
  rcases List.mem_append.mp member with front | gap
  · rcases List.mem_append.mp front with gap | inside
    · exact absurd (left ',' gap) (by decide)
    · exact absurd (style.isWordChar_of_mem_byte byte ',' inside) (by decide)
  · exact absurd (right ',' gap) (by decide)

/-- No element holds a comma, so the commas divide them. -/
theorem mapM_readByte?_elements {gap : List Char} (blank : Text.IsGap gap) (nonempty : bytes ≠ []) :
    ((gap ++ style.elements bytes ++ ['\n']).splitOn ',').mapM readByte? = some bytes := by
  induction bytes generalizing gap with
  | nil => contradiction
  | cons byte bytes ih =>
    cases bytes with
    | nil =>
      have feed : Text.IsGap ['\n'] := List.forall_mem_singleton.mpr (by decide)
      rw [elements_singleton, List.splitOn_eq_singleton (style.comma_not_mem blank feed byte), List.mapM_cons,
        style.readByte?_byte blank feed byte]
      rfl
    | cons next bytes =>
      -- The blank behind a comma belongs to the next element.
      obtain ⟨inner, blank', separator⟩ := style.exists_separator
      have text : gap ++ style.elements (byte :: next :: bytes) ++ ['\n'] =
          gap ++ (style.byte byte).toList ++ [] ++ ',' :: (inner ++ style.elements (next :: bytes) ++ ['\n']) := by
        rw [elements_cons_cons, separator]
        simp
      rw [text, List.splitOn_append_cons_self,
        List.splitOn_eq_singleton (style.comma_not_mem blank Text.isGap_nil byte), List.singleton_append,
        List.mapM_cons, style.readByte?_byte blank Text.isGap_nil byte, ih blank' (List.cons_ne_nil _ _)]
      rfl

theorem newline_not_mem_elements (bytes : List UInt8) : '\n' ∉ style.elements bytes := by
  have separator : '\n' ∉ style.spelling.separator.toList := by cases style <;> decide
  have element (byte : UInt8) : '\n' ∉ (style.byte byte).toList := fun inside =>
    absurd (style.isWordChar_of_mem_byte byte '\n' inside) (by decide)
  induction bytes with
  | nil => simp [elements]
  | cons byte bytes ih =>
    cases bytes with
    | nil =>
      rw [elements_singleton]
      exact element byte
    | cons next bytes =>
      rw [elements_cons_cons, List.mem_append, List.mem_append, not_or, not_or]
      exact ⟨⟨element byte, separator⟩, ih⟩

/-! ### The forms of a data directive -/

inductive Written : List UInt8 → List Char → Prop
  | nothing : Written [] []
  | text {bytes : List UInt8} : 4 ≤ bytes.length → (∀ byte ∈ bytes, IsPrintableByte byte) →
      Written bytes (style.textOpening ++ (bytes.flatMap escapedByte ++ ['"', '\n']))
  | elements {bytes : List UInt8} : bytes ≠ [] →
      ¬ (4 ≤ bytes.length ∧ ∀ byte ∈ bytes, IsPrintableByte byte) →
      Written bytes (style.bytesOpening ++ (style.elements bytes ++ ['\n']))

theorem escape_eq (printable : ∀ byte ∈ bytes, IsPrintableByte byte) :
    Text.escape (bytes.map byteChar) = bytes.flatMap escapedByte := by
  rw [Text.escape, List.flatMap_map]
  exact List.flatMap_congr fun byte member => escapeChar_byteChar (printable byte member)

theorem written_dataLine (bytes : List UInt8) : style.Written bytes (style.dataLine bytes).toList := by
  unfold dataLine
  split
  · next empty =>
    rw [List.isEmpty_iff.mp empty]
    exact .nothing
  · next nonempty =>
    split
    · next text =>
      obtain ⟨long, printable⟩ := isText_iff.mp text
      have escaped : Text.escape (bytes.map fun byte => Char.ofNat byte.toNat) = bytes.flatMap escapedByte :=
        escape_eq printable
      have written : style.Written bytes _ := .text long printable
      simpa [directiveLine, Text.quoted, textOpening, escaped] using written
    · next other =>
      have written : style.Written bytes _ := .elements (by simpa using nonempty) (mt isText_iff.mpr other)
      simpa [directiveLine, bytesOpening, elements, String.toList_intercalate, Function.comp_def] using written

theorem not_textOpening_isPrefix (rest : List Char) :
    ¬ style.textOpening <+: style.bytesOpening ++ rest := by
  intro begins
  cases style <;> simp [textOpening, bytesOpening, spelling] at begins

theorem newline_not_mem_opening :
    '\n' ∉ style.textOpening ∧ '\n' ∉ style.bytesOpening := by
  cases style <;> decide

theorem newline_not_mem_escaped (printable : ∀ byte ∈ bytes, IsPrintableByte byte) :
    '\n' ∉ bytes.flatMap escapedByte := by
  intro member
  obtain ⟨byte, known, inside⟩ := List.mem_flatMap.mp member
  have low := (printable byte known).toNat.1
  have feed : '\n' ≠ byteChar byte := by
    intro same
    rw [← same] at low
    exact absurd low (by decide)
  unfold escapedByte at inside
  split at inside <;> simp [feed] at inside

namespace Written
variable {style : Style} {bytes : List UInt8} {text : List Char}

theorem eq_nil_iff (written : style.Written bytes text) : text = [] ↔ bytes = [] := by
  cases written with
  | nothing => simp
  | text long _ =>
    have nonempty : bytes ≠ [] := List.ne_nil_of_length_pos (by omega)
    simp [nonempty]
  | elements nonempty _ => simp [nonempty]

theorem exists_line (written : style.Written bytes text) (nonempty : bytes ≠ []) :
    ∃ line, '\n' ∉ line ∧ text = line ++ ['\n'] := by
  obtain ⟨opening, opening'⟩ := style.newline_not_mem_opening
  cases written with
  | nothing => contradiction
  | text _ printable =>
    refine ⟨style.textOpening ++ (bytes.flatMap escapedByte ++ ['"']), ?_, by simp⟩
    simp only [List.mem_append, not_or]
    exact ⟨opening, newline_not_mem_escaped printable, by decide⟩
  | elements _ _ =>
    refine ⟨style.bytesOpening ++ style.elements bytes, ?_, by simp⟩
    simp only [List.mem_append, not_or]
    exact ⟨opening', style.newline_not_mem_elements bytes⟩

theorem textOpening_isPrefix_iff (written : style.Written bytes text) : style.textOpening <+: text ↔
    4 ≤ bytes.length ∧ ∀ byte ∈ bytes, IsPrintableByte byte := by
  cases written with
  | nothing => cases style <;> simp [textOpening, spelling]
  | text long printable => exact ⟨fun _ => ⟨long, printable⟩, fun _ => List.prefix_append _ _⟩
  | elements _ other =>
    exact ⟨fun begins => absurd begins (style.not_textOpening_isPrefix _), fun text => absurd text other⟩

theorem body_eq {body : List Char} (written : style.Written bytes (style.textOpening ++ body)) :
    body = bytes.flatMap escapedByte ++ ['"', '\n'] := by
  generalize shape : style.textOpening ++ body = text at written
  cases written with
  | nothing => cases style <;> simp [textOpening, spelling] at shape
  | text _ _ => exact List.append_cancel_left shape
  | elements _ _ =>
    exact absurd (shape ▸ List.prefix_append _ _) (style.not_textOpening_isPrefix _)

theorem readData?_eq (written : style.Written bytes text) : style.readData? text = some bytes := by
  cases written with
  | nothing => rfl
  | text long printable =>
    have read : readQuoted? (bytes.flatMap escapedByte ++ ['"', '\n']) = some (bytes.map byteChar, ['\n']) :=
      readQuoted?_escaped bytes ['\n']
    rw [readData?, if_neg (by simp), Text.stripMark?_append]
    simp only [read, Option.bind_some, if_true, map_toNat_byteChar]
  | elements nonempty other =>
    rw [readData?, if_neg (by simp), Text.stripMark?_of_not_isPrefix (style.not_textOpening_isPrefix _)]
    simp only [Text.stripMark?_append, Option.bind_some]
    exact style.mapM_readByte?_elements Text.isGap_nil nonempty

end Written

end Style

/-- Data directives can be read back. No data is written as nothing, any other
as one line. Text is written as a string constant, which ends at its closing quote
and gives the data when its escapes are undone. -/
theorem data_lines_read_back (style : Style) :
    (∀ first second : List UInt8, style.dataLine first = style.dataLine second → first = second) ∧
    ∀ bytes : List UInt8,
      style.readData? (style.dataLine bytes).toList = some bytes ∧
      (style.dataLine bytes = "" ↔ bytes = []) ∧
      (bytes ≠ [] → ∃ line, '\n' ∉ line ∧ (style.dataLine bytes).toList = line ++ ['\n']) ∧
      (style.textOpening <+: (style.dataLine bytes).toList ↔
        4 ≤ bytes.length ∧ ∀ byte ∈ bytes, IsPrintableByte byte) ∧
      ∀ body, (style.dataLine bytes).toList = style.textOpening ++ body →
        body = bytes.flatMap escapedByte ++ ['"', '\n'] ∧
          readQuoted? body = some (bytes.map byteChar, ['\n']) := by
  refine ⟨fun first second same => ?_, fun bytes => ?_⟩
  · have read := (style.written_dataLine first).readData?_eq
    rw [same, (style.written_dataLine second).readData?_eq] at read
    exact (Option.some.inj read).symm
  · have written := style.written_dataLine bytes
    have empty : style.dataLine bytes = "" ↔ (style.dataLine bytes).toList = [] := by
      rw [String.toList_eq_nil_iff]
    refine ⟨written.readData?_eq, empty.trans written.eq_nil_iff, written.exists_line,
      written.textOpening_isPrefix_iff, fun body shape => ?_⟩
    obtain rfl := Style.Written.body_eq (shape ▸ written)
    exact ⟨rfl, readQuoted?_escaped bytes ['\n']⟩

/-- Every character of this text but the first is escaped. -/
theorem data_lines_read_back_quotes :
    let bytes : List UInt8 := [0x61, 0x22, 0x5C, 0x27]
    let body := "a\\\"\\\\\\'\"\n".toList
    (Style.gas.dataLine bytes).toList = Style.gas.textOpening ++ body ∧
      readQuoted? body = some (['a', '"', '\\', '\''], ['\n']) ∧
      Style.gas.dataLine bytes ≠ Style.gas.dataLine [0x61, 0x22, 0x5C] := by
  intro bytes body
  have written : (Style.gas.dataLine bytes).toList = Style.gas.textOpening ++ body := by decide +kernel
  obtain ⟨distinct, reads⟩ := data_lines_read_back .gas
  obtain ⟨-, -, -, -, text⟩ := reads bytes
  exact ⟨written, (text body written).2, fun same => absurd (distinct _ _ same) (by decide)⟩

end H8.Assembly
