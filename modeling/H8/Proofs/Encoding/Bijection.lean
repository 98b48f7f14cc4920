import H8.Proofs.Encoding.Fields
import H8.Proofs.Encoding.Grammar
import Mathlib.Data.List.Dedup

/-! Encodings and the values of their fields determine each other.

The fixed bits and the bits of the fields make up all bits of a pattern, so an
encoding is given by a value for each field and by nothing else. Bytes match a
pattern if they begin with an encoding, and match as far as they go if they are
the beginning of one.
-/

set_option autoImplicit false

namespace H8.Encoding

def binary : (count value : Nat) → List Bool
  | 0, _ => []
  | count + 1, value => value.testBit count :: binary count value

@[simp] theorem length_binary (count value : Nat) : (binary count value).length = count := by
  induction count with
  | zero => rfl
  | succ count ih => rw [binary, List.length_cons, ih]

theorem gather_binary (count value : Nat) : gather (binary count value) = value % 2 ^ count := by
  induction count with
  | zero => simp [binary, gather, Nat.mod_one]
  | succ count ih =>
    have first : gather [value.testBit count] = value / 2 ^ count % 2 := by
      simp [gather, Nat.toNat_testBit]
    calc gather (value.testBit count :: binary count value)
        = gather [value.testBit count] * 2 ^ count + gather (binary count value) := by
          have split := gather_append [value.testBit count] (binary count value)
          rwa [length_binary] at split
      _ = value % 2 ^ (count + 1) := by
          rw [first, ih, Nat.mod_pow_succ, Nat.add_comm, Nat.mul_comm]

theorem bytesBits_injective {first second : List UInt8} (same : bytesBits first = bytesBits second) :
    first = second := by
  induction first generalizing second with
  | nil =>
    have length := congrArg List.length same
    rw [length_bytesBits, length_bytesBits, List.length_nil] at length
    exact (List.eq_nil_of_length_eq_zero (by omega)).symm
  | cons byte bytes ih =>
    cases second with
    | nil => simp [byteBits] at same
    | cons other others =>
      rw [bytesBits_cons, bytesBits_cons] at same
      obtain ⟨head, tail⟩ := List.append_inj same rfl
      rw [byteBits_injective head, ih tail]

def Bit.letter? : Bit → Option Char
  | .fixed _ => none
  | .field letter => some letter

namespace Pattern
section
variable {letter : Char} {values : Char → Nat} {bits : List Bit} {data : List Bool}

def selected (letter : Char) : List Bit → List Bool → List Bool
  | bit :: bits, value :: data =>
    if bit = .field letter then value :: selected letter bits data else selected letter bits data
  | _, _ => []

/-- Data with the fixed bits of a pattern, and in its fields the digits of given values:
each bit has the place that the later bits of its field leave to it. -/
def spread (values : Char → Nat) : List Bit → List Bool
  | [] => []
  | .fixed value :: bits => value :: spread values bits
  | .field letter :: bits =>
    (values letter).testBit (bits.count (.field letter)) :: spread values bits

theorem selected_cons_self (letter : Char) (bits : List Bit) (value : Bool) (data : List Bool) :
    selected letter (.field letter :: bits) (value :: data) = value :: selected letter bits data :=
  if_pos rfl

theorem selected_cons_of_ne {bit : Bit} (other : bit ≠ .field letter) (bits : List Bit) (value : Bool)
    (data : List Bool) : selected letter (bit :: bits) (value :: data) = selected letter bits data :=
  if_neg other

@[simp] theorem length_spread (values : Char → Nat) (bits : List Bit) :
    (spread values bits).length = bits.length := by
  induction bits with
  | nil => rfl
  | cons bit bits ih => cases bit <;> simp [spread, ih]

theorem agrees_spread (values : Char → Nat) (bits : List Bit) :
    agrees bits (spread values bits) = true := by
  induction bits with
  | nil => rfl
  | cons bit bits ih => cases bit <;> simp [spread, admits, ih]

theorem length_selected (letter : Char) (covered : data.length = bits.length) :
    (selected letter bits data).length = bits.count (.field letter) := by
  induction bits generalizing data with
  | nil => simp [selected]
  | cons bit bits ih =>
    cases data with
    | nil => simp at covered
    | cons value data =>
      have rest := ih (by simpa using covered)
      by_cases own : bit = .field letter
      · rw [own, selected_cons_self, List.length_cons, rest, List.count_cons_self]
      · rw [selected_cons_of_ne own, rest, List.count_cons_of_ne own]

theorem selected_spread (letter : Char) (values : Char → Nat) (bits : List Bit) :
    selected letter bits (spread values bits) =
      binary (bits.count (.field letter)) (values letter) := by
  induction bits with
  | nil => rfl
  | cons bit bits ih =>
    by_cases own : bit = .field letter
    · rw [own, spread, selected_cons_self, ih, List.count_cons_self, binary]
    · rw [List.count_cons_of_ne own, ← ih]
      cases bit <;> exact selected_cons_of_ne own _ _ _

theorem eq_spread (covered : data.length = bits.length) (agree : agrees bits data = true)
    (digits : ∀ letter, .field letter ∈ bits →
      selected letter bits data = binary (bits.count (.field letter)) (values letter)) :
    data = spread values bits := by
  induction bits generalizing data with
  | nil => exact List.eq_nil_of_length_eq_zero covered
  | cons bit bits ih =>
    cases data with
    | nil => simp at covered
    | cons value data =>
      rw [agrees_cons, Bool.and_eq_true] at agree
      have own (letter : Char) (same : bit = .field letter) :
          value = (values letter).testBit (bits.count (.field letter)) ∧
            selected letter bits data = binary (bits.count (.field letter)) (values letter) := by
        have whole := digits letter (same ▸ List.mem_cons_self)
        rw [same, selected_cons_self, List.count_cons_self, binary] at whole
        exact List.cons.inj whole
      have tail : data = spread values bits := by
        refine ih (by simpa using covered) agree.2 fun letter member => ?_
        by_cases same : bit = .field letter
        · exact (own letter same).2
        · have whole := digits letter (List.mem_cons_of_mem bit member)
          rwa [selected_cons_of_ne same, List.count_cons_of_ne same] at whole
      cases bit with
      | fixed expected => rw [spread, ← tail, beq_iff_eq.mp agree.1]
      | field letter => rw [spread, ← tail, (own letter rfl).1]

theorem eq_spread_iff (covered : data.length = bits.length)
    (room : ∀ letter, .field letter ∈ bits → values letter < 2 ^ bits.count (.field letter)) :
    data = spread values bits ↔ agrees bits data = true ∧
      ∀ letter, .field letter ∈ bits → gather (selected letter bits data) = values letter := by
  constructor
  · rintro rfl
    refine ⟨agrees_spread values bits, fun letter member => ?_⟩
    rw [selected_spread, gather_binary, Nat.mod_eq_of_lt (room letter member)]
  · rintro ⟨agree, fields⟩
    refine eq_spread covered agree fun letter member => gather_injective ?_ ?_
    · rw [length_selected letter covered, length_binary]
    · rw [fields letter member, gather_binary, Nat.mod_eq_of_lt (room letter member)]

/-- The positions of a field pick its bits out of the data. -/
theorem map_findIdxs (letter : Char) (bits : List Bit) (data : List Bool) (start : Nat)
    (covered : start + bits.length ≤ data.length) :
    (bits.findIdxs (· == .field letter) start).map (fun position => data[position]?.getD false) =
      selected letter bits (data.drop start) := by
  induction bits generalizing start with
  | nil => rfl
  | cons bit bits ih =>
    rw [List.length_cons] at covered
    have inside : start < data.length := by omega
    have rest := ih (start + 1) (by omega)
    rw [List.drop_eq_getElem_cons inside, List.findIdxs_cons]
    by_cases own : bit = .field letter
    · rw [own, selected_cons_self, if_pos (beq_self_eq_true _), List.map_cons, rest,
        List.getElem?_eq_getElem inside, Option.getD_some]
    · rw [selected_cons_of_ne own, if_neg (by simpa using own), rest]

end

section
variable {pattern : Pattern} {letter : Char} {bytes : List UInt8} {values : Char → Nat}

/-- Positions of sixteen bits are exact for up to 8192 bytes. -/
theorem positions_eq (short : pattern.bits.length ≤ UInt16.size) (letter : Char) :
    pattern.positions letter = pattern.bits.findIdxs (· == .field letter) := by
  rw [List.findIdxs_eq_filterMap_zipIdx, positions]
  refine List.filterMap_congr fun ⟨bit, index⟩ member => ?_
  have inside := (List.getElem?_eq_some_iff.mp (List.mem_zipIdx_iff_getElem?.mp member)).1
  by_cases own : bit = .field letter
  · simp [own, Nat.mod_eq_of_lt (Nat.lt_of_lt_of_le inside short)]
  · simp [own, beq_eq_false_iff_ne.mpr own]

theorem length_positions (short : pattern.bits.length ≤ UInt16.size) (letter : Char) :
    (pattern.positions letter).length = pattern.bits.count (.field letter) := by
  rw [positions_eq short, List.length_findIdxs]
  rfl

theorem hasField_iff : pattern.hasField letter = true ↔ .field letter ∈ pattern.bits :=
  List.contains_iff_mem

/-- The value of a field of at most 32 bits has exactly the digits at its positions. -/
theorem field_eq_gather (short : pattern.bits.length ≤ UInt16.size)
    (narrow : (pattern.positions letter).length ≤ 32)
    (covered : pattern.bits.length ≤ (bytesBits bytes).length) :
    pattern.field bytes letter = gather (selected letter pattern.bits (bytesBits bytes)) := by
  have digits : pattern.digits bytes letter = selected letter pattern.bits (bytesBits bytes) := by
    rw [digits, positions_eq short, funext (bitAt_eq bytes)]
    exact map_findIdxs letter pattern.bits (bytesBits bytes) 0 (by rwa [Nat.zero_add])
  have small : gather (pattern.digits bytes letter) < UInt32.size := by
    have width : (pattern.digits bytes letter).length ≤ 32 := by rwa [Pattern.digits, List.length_map]
    exact Nat.lt_of_lt_of_le (gather_lt _) (Nat.pow_le_pow_right (by decide) width)
  rw [field_eq, Nat.mod_eq_of_lt small, digits]

/-! ### Encodings -/

/-- Positions fit into sixteen bits and the values of fields into 32, so that nothing
is cut off. -/
structure Bounded (pattern : Pattern) : Prop where
  whole : pattern.IsWhole 8192
  narrow : ∀ letter, (pattern.positions letter).length ≤ 32

theorem Bounded.short (bounded : pattern.Bounded) : pattern.bits.length ≤ UInt16.size := by
  have most : pattern.length ≤ 8192 := bounded.whole.2.2
  have size : UInt16.size = 65536 := rfl
  rw [bounded.whole.1]
  omega

def HasRoom (pattern : Pattern) (values : Char → Nat) : Prop :=
  ∀ letter, pattern.hasField letter = true → values letter < 2 ^ (pattern.positions letter).length

/-- Bytes that match to their end and in whose fields the values are found. -/
def Encodes (pattern : Pattern) (values : Char → Nat) (bytes : List UInt8) : Prop :=
  bytes.length = pattern.length ∧ pattern.compare bytes = .full ∧
    ∀ letter, pattern.hasField letter = true → pattern.field bytes letter = values letter

def encode (pattern : Pattern) (values : Char → Nat) : List UInt8 :=
  packBytes (spread values pattern.bits)

def IsEncoding (pattern : Pattern) (bytes : List UInt8) : Prop :=
  ∃ values, pattern.HasRoom values ∧ bytes = pattern.encode values

theorem bytesBits_encode (bounded : pattern.Bounded) (values : Char → Nat) :
    bytesBits (pattern.encode values) = spread values pattern.bits :=
  bytesBits_packBytes pattern.length _ (by rw [length_spread, bounded.whole.1])

theorem length_encode (bounded : pattern.Bounded) (values : Char → Nat) :
    (pattern.encode values).length = pattern.length := by
  have bits := congrArg List.length (bytesBits_encode bounded values)
  rw [length_bytesBits, length_spread, bounded.whole.1] at bits
  omega

/-- The values have one encoding and it is read back as these values. -/
theorem encodes_iff (bounded : pattern.Bounded) (room : pattern.HasRoom values) :
    pattern.Encodes values bytes ↔ bytes = pattern.encode values := by
  have room : ∀ letter, .field letter ∈ pattern.bits →
      values letter < 2 ^ pattern.bits.count (.field letter) := by
    intro letter member
    rw [← length_positions bounded.short]
    exact room letter (hasField_iff.mpr member)
  constructor
  · rintro ⟨covered, full, fields⟩
    have length : (bytesBits bytes).length = pattern.bits.length := by
      rw [length_bytesBits, covered, bounded.whole.1]
    refine bytesBits_injective ?_
    rw [bytesBits_encode bounded, eq_spread_iff length room]
    refine ⟨((compare_eq_full_iff bounded.whole).mp full).1, fun letter member => ?_⟩
    rw [← field_eq_gather bounded.short (bounded.narrow letter) length.ge]
    exact fields letter (hasField_iff.mpr member)
  · rintro rfl
    have length : (bytesBits (pattern.encode values)).length = pattern.bits.length := by
      rw [bytesBits_encode bounded, length_spread]
    obtain ⟨agree, fields⟩ := (eq_spread_iff length room).mp (bytesBits_encode bounded values)
    refine ⟨length_encode bounded values, ?_, fun letter has => ?_⟩
    · exact (compare_eq_full_iff bounded.whole).mpr ⟨agree, (length_encode bounded values).ge⟩
    · rw [field_eq_gather bounded.short (bounded.narrow letter) length.ge]
      exact fields letter (hasField_iff.mp has)

theorem isEncoding_iff (bounded : pattern.Bounded) : pattern.IsEncoding bytes ↔
      bytes.length = pattern.length ∧ agrees pattern.bits (bytesBits bytes) = true := by
  constructor
  · rintro ⟨values, -, rfl⟩
    rw [bytesBits_encode bounded]
    exact ⟨length_encode bounded values, agrees_spread values pattern.bits⟩
  · rintro ⟨covered, agree⟩
    have room : pattern.HasRoom (pattern.field bytes) :=
      fun letter _ => field_lt_of_width (Nat.le_refl _) bytes
    refine ⟨pattern.field bytes, room, (encodes_iff bounded room).mp ⟨covered, ?_, ?_⟩⟩
    · exact (compare_eq_full_iff bounded.whole).mpr ⟨agree, covered.ge⟩
    · exact fun letter _ => rfl

/-- Bytes that agree as far as they go can be completed. -/
theorem exists_encoding (bounded : pattern.Bounded)
    (agree : agrees pattern.bits (bytesBits bytes) = true) (cut : bytes.length < pattern.length) :
    ∃ encoding, pattern.IsEncoding encoding ∧ bytes <+: encoding ∧ bytes ≠ encoding := by
  -- The missing fields are filled with zeros.
  let missing := pattern.bits.drop (8 * bytes.length)
  have bits : bytesBits (packBytes (spread (fun _ => 0) missing)) = spread (fun _ => 0) missing := by
    apply bytesBits_packBytes (pattern.length - bytes.length)
    rw [length_spread, List.length_drop, bounded.whole.1]
    omega
  have added := congrArg List.length bits
  rw [length_bytesBits, length_spread, List.length_drop, bounded.whole.1] at added
  refine ⟨bytes ++ packBytes (spread (fun _ => 0) missing), (isEncoding_iff bounded).mpr ⟨?_, ?_⟩,
    List.prefix_append _ _, fun same => ?_⟩
  · rw [List.length_append]
    omega
  · rw [bytesBits_append, agrees_append, agree, bits, length_bytesBits, agrees_spread]
    rfl
  · have length := congrArg List.length same
    rw [List.length_append] at length
    omega

theorem compare_eq_full_iff_encoding (bounded : pattern.Bounded) (bytes : List UInt8) :
    pattern.compare bytes = .full ↔ pattern.IsEncoding (bytes.take pattern.length) := by
  rw [compare_eq_full_iff bounded.whole, isEncoding_iff bounded, bytesBits_take, ← bounded.whole.1,
    agrees_take, List.length_take]
  constructor
  · rintro ⟨agree, covered⟩
    exact ⟨Nat.min_eq_left covered, agree⟩
  · rintro ⟨covered, agree⟩
    exact ⟨agree, by omega⟩

theorem compare_eq_incomplete_iff_encoding (bounded : pattern.Bounded) (bytes : List UInt8) :
    pattern.compare bytes = .incomplete ↔
      ∃ encoding, pattern.IsEncoding encoding ∧ bytes <+: encoding ∧ bytes ≠ encoding := by
  rw [compare_eq_incomplete_iff bounded.whole]
  constructor
  · rintro ⟨agree, cut⟩
    exact exists_encoding bounded agree cut
  · rintro ⟨-, encodes, ⟨rest, rfl⟩, proper⟩
    obtain ⟨length, agree⟩ := (isEncoding_iff bounded).mp encodes
    rw [bytesBits_append, agrees_append, Bool.and_eq_true] at agree
    have more : rest ≠ [] := fun empty => proper (by rw [empty, List.append_nil])
    have positive := List.length_pos_iff.mpr more
    rw [List.length_append] at length
    exact ⟨agree.1, by omega⟩

theorem admitsFirst_iff (bounded : pattern.Bounded) (byte : UInt8) :
    pattern.admitsFirst byte = true ↔ pattern.compare [byte] ≠ .mismatch := by
  have bits : bytesBits [byte] = byteBits byte := by rw [bytesBits_cons, bytesBits_nil, List.append_nil]
  rw [admitsFirst, compare_eq bounded.whole, bits]
  split
  · next agree => split <;> simp [agree]
  · next differ => simp [differ]

/-! ### All bits -/

def letters (pattern : Pattern) : List Char := (pattern.bits.filterMap Bit.letter?).dedup

def fixedPositions (pattern : Pattern) : List Nat := pattern.bits.findIdxs isFixed

theorem mem_letters_iff : letter ∈ pattern.letters ↔ pattern.hasField letter = true := by
  rw [letters, List.mem_dedup, List.mem_filterMap, hasField_iff]
  constructor
  · rintro ⟨bit, member, found⟩
    cases bit with
    | fixed value => cases found
    | field other =>
      cases found
      exact member
  · intro member
    exact ⟨.field letter, member, rfl⟩

theorem length_fixedPositions (pattern : Pattern) :
    pattern.fixedPositions.length = pattern.fixedBits :=
  List.length_findIdxs

theorem nodup_fixedPositions (pattern : Pattern) : pattern.fixedPositions.Nodup :=
  List.nodup_findIdxs

theorem mem_fixedPositions_iff {position : Nat} : position ∈ pattern.fixedPositions ↔
    ∃ value, pattern.bits[position]? = some (.fixed value) := by
  rw [fixedPositions, List.mem_findIdxs_iff_exists_getElem_pos]
  constructor
  · rintro ⟨inside, fixed⟩
    cases bit : pattern.bits[position] with
    | fixed value => exact ⟨value, List.getElem?_eq_some_iff.mpr ⟨inside, bit⟩⟩
    | field letter => simp [bit, isFixed] at fixed
  · rintro ⟨value, found⟩
    obtain ⟨inside, bit⟩ := List.getElem?_eq_some_iff.mp found
    exact ⟨inside, by rw [bit]; rfl⟩

theorem mem_flatMap_positions_iff (short : pattern.bits.length ≤ UInt16.size) {position : Nat} :
    position ∈ pattern.letters.flatMap pattern.positions ↔
      ∃ letter, pattern.bits[position]? = some (.field letter) := by
  rw [List.mem_flatMap]
  constructor
  · rintro ⟨letter, -, member⟩
    exact ⟨letter, (mem_positions short).mp member⟩
  · rintro ⟨letter, found⟩
    exact ⟨letter, mem_letters_iff.mpr (hasField_iff.mpr (List.mem_of_getElem? found)),
      (mem_positions short).mpr found⟩

theorem nodup_flatMap_positions (short : pattern.bits.length ≤ UInt16.size) :
    (pattern.letters.flatMap pattern.positions).Nodup := by
  rw [List.nodup_flatMap]
  constructor
  · intro letter _
    rw [positions_eq short]
    exact List.nodup_findIdxs
  · refine (List.nodup_dedup _).imp fun {first second} different => ?_
    intro position left right
    rw [mem_positions short] at left right
    rw [left] at right
    cases right
    exact different rfl

/-- Every position belongs to the fixed bits or to one field, and is counted once. -/
theorem positions_perm (short : pattern.bits.length ≤ UInt16.size) :
    (pattern.fixedPositions ++ pattern.letters.flatMap pattern.positions).Perm
      (List.range pattern.bits.length) := by
  have apart : pattern.fixedPositions.Disjoint (pattern.letters.flatMap pattern.positions) := by
    intro position left right
    obtain ⟨value, fixed⟩ := mem_fixedPositions_iff.mp left
    obtain ⟨letter, field⟩ := (mem_flatMap_positions_iff short).mp right
    rw [fixed] at field
    cases field
  have nodup := pattern.nodup_fixedPositions.append (nodup_flatMap_positions short) apart
  refine (List.perm_ext_iff_of_nodup nodup List.nodup_range).mpr fun position => ?_
  rw [List.mem_append, mem_fixedPositions_iff, mem_flatMap_positions_iff short, List.mem_range]
  constructor
  · rintro (⟨value, found⟩ | ⟨letter, found⟩) <;> exact (List.getElem?_eq_some_iff.mp found).1
  · intro inside
    cases bit : pattern.bits[position] with
    | fixed value => exact .inl ⟨value, List.getElem?_eq_some_iff.mpr ⟨inside, bit⟩⟩
    | field letter => exact .inr ⟨letter, List.getElem?_eq_some_iff.mpr ⟨inside, bit⟩⟩

theorem Describes.bounded {text : String} (described : Describes text pattern)
    (most : pattern.length ≤ 8192) (narrow : ∀ letter, (pattern.positions letter).length ≤ 32) :
    pattern.Bounded := by
  obtain ⟨-, -, -, -, -, positive, divides⟩ := described
  have whole : pattern.bits.length = 8 * pattern.length := (Nat.mul_div_cancel' divides).symm
  exact ⟨⟨whole, by omega, most⟩, narrow⟩

end

/-- Exactly the texts whose tokens have one of the three forms and fill whole bytes are
read. The bits of such a pattern are the fixed ones and those of its fields. If it
is not too long and its fields are not too wide, the values of the fields have one
encoding, and bytes are compared with all encodings at once: they begin with one,
are the proper beginning of one, or neither. -/
theorem parsed_bijective (text : String) (pattern : Pattern) :
    (parse text = .ok pattern ↔ Describes text pattern) ∧
    (parse text = .ok pattern → pattern.length ≤ 8192 →
      (∀ letter, (pattern.positions letter).length ≤ 32) →
      (pattern.fixedPositions ++ pattern.letters.flatMap pattern.positions).Perm
        (List.range (8 * pattern.length)) ∧
      pattern.fixedPositions.length = pattern.fixedBits ∧
      (∀ values, pattern.HasRoom values →
        (∃! bytes, pattern.Encodes values bytes) ∧ pattern.Encodes values (pattern.encode values)) ∧
      (∀ bytes,
        (pattern.compare bytes = .full ↔ pattern.IsEncoding (bytes.take pattern.length)) ∧
        (pattern.compare bytes = .incomplete ↔
          ∃ encoding, pattern.IsEncoding encoding ∧ bytes <+: encoding ∧ bytes ≠ encoding) ∧
        (pattern.compare bytes = .mismatch ↔ ¬ pattern.IsEncoding (bytes.take pattern.length) ∧
          ¬ ∃ encoding, pattern.IsEncoding encoding ∧ bytes <+: encoding ∧ bytes ≠ encoding)) ∧
      ∀ byte, pattern.admitsFirst byte = true ↔ pattern.compare [byte] ≠ .mismatch) := by
  refine ⟨parse_eq_ok_iff, fun read most narrow => ?_⟩
  have bounded := (parse_eq_ok_iff.mp read).bounded most narrow
  refine ⟨bounded.whole.1 ▸ positions_perm bounded.short, length_fixedPositions pattern,
    fun values room => ?_, fun bytes => ?_, admitsFirst_iff bounded⟩
  · have encoded : pattern.Encodes values (pattern.encode values) := (encodes_iff bounded room).mpr rfl
    exact ⟨⟨_, encoded, fun other encodes => (encodes_iff bounded room).mp encodes⟩, encoded⟩
  · have full := compare_eq_full_iff_encoding bounded bytes
    have incomplete := compare_eq_incomplete_iff_encoding bounded bytes
    refine ⟨full, incomplete, ?_⟩
    rw [← full, ← incomplete]
    cases pattern.compare bytes <;> simp

/-- Two fields of which each has bits on both sides of the other. -/
theorem parsed_bijective_interleaved :
    let pattern := ofLayout [.byte 0x7C, .bits 1 1, .field 'a' 2, .bits 1 0, .field 'b' 1, .bits 1 0,
      .field 'a' 1, .field 'b' 1, .field 'a' 8]
    let values := fun letter => if letter = 'a' then 0x5A3 else 2
    parse "0x7C 1aa0b0ab a8" = .ok pattern ∧ pattern.length ≤ 8192 ∧
      (∀ letter, (pattern.positions letter).length ≤ 32) ∧ pattern.HasRoom values ∧
      (∃! bytes, pattern.Encodes values bytes) ∧ pattern.Encodes values [0x7C, 0xCA, 0xA3] ∧
      pattern.compare [0x7C, 0xCA, 0xA3, 0xFF] = .full ∧ pattern.IsEncoding [0x7C, 0xCA, 0xA3] ∧
      pattern.compare [0x7C] = .incomplete ∧ pattern.admitsFirst 0x7C = true := by
  intro pattern values
  have read : parse "0x7C 1aa0b0ab a8" = .ok pattern := by decide +kernel
  have most : pattern.length ≤ 8192 := by decide
  have narrow (letter : Char) : (pattern.positions letter).length ≤ 32 := by
    refine Nat.le_trans (List.length_filterMap_le _ _) ?_
    rw [List.length_zipIdx]
    decide
  have room : pattern.HasRoom values := by
    have named : pattern.letters = ['b', 'a'] := by decide
    intro letter has
    rw [← mem_letters_iff, named] at has
    rcases List.mem_pair.mp has with rfl | rfl <;> decide
  have bytes : pattern.encode values = [0x7C, 0xCA, 0xA3] := by decide
  obtain ⟨-, facts⟩ := parsed_bijective "0x7C 1aa0b0ab a8" pattern
  obtain ⟨-, -, unique, compared, first⟩ := facts read most narrow
  obtain ⟨one, encoded⟩ := unique values room
  have length : pattern.length = 3 := by decide
  have full : pattern.compare [0x7C, 0xCA, 0xA3, 0xFF] = .full := by decide
  have begins := (compared [0x7C, 0xCA, 0xA3, 0xFF]).1.mp full
  rw [length] at begins
  have incomplete : pattern.compare [0x7C] = .incomplete := by decide
  exact ⟨read, most, narrow, room, one, bytes ▸ encoded, full, begins, incomplete,
    (first 0x7C).mpr (by simp [incomplete])⟩

end Pattern

end H8.Encoding
