import H8.Encoding.Opcode

/-! Bytes as lists of bits, and agreement of a pattern with such a list.

Position zero is the most significant bit of the first byte. Agreement looks
only at the positions that pattern and data share, so it is kept when data is
cut off, and two patterns that clash within the data cannot both agree with it.
-/

set_option autoImplicit false

namespace H8.Encoding

@[simp] theorem length_byteBits (byte : UInt8) : (byteBits byte).length = 8 := rfl

@[simp] theorem bytesBits_nil : bytesBits [] = [] := rfl

@[simp] theorem bytesBits_cons (byte : UInt8) (bytes : List UInt8) :
    bytesBits (byte :: bytes) = byteBits byte ++ bytesBits bytes := rfl

@[simp] theorem bytesBits_append (first second : List UInt8) :
    bytesBits (first ++ second) = bytesBits first ++ bytesBits second :=
  List.flatMap_append

@[simp] theorem length_bytesBits (bytes : List UInt8) :
    (bytesBits bytes).length = 8 * bytes.length := by
  induction bytes with
  | nil => rfl
  | cons byte bytes ih =>
    simp only [bytesBits_cons, List.length_append, length_byteBits, ih, List.length_cons]
    omega

theorem bytesBits_take (bytes : List UInt8) (count : Nat) :
    bytesBits (bytes.take count) = (bytesBits bytes).take (8 * count) := by
  induction bytes generalizing count with
  | nil => simp
  | cons byte bytes ih =>
    cases count with
    | zero => simp
    | succ count =>
      have shift : 8 * (count + 1) = (byteBits byte).length + 8 * count := by
        rw [length_byteBits]
        omega
      rw [List.take_succ_cons, bytesBits_cons, bytesBits_cons, ih, shift,
        List.take_length_add_append]

theorem getElem?_byteBits (byte : UInt8) {position : Nat} (inside : position < 8) :
    (byteBits byte)[position]? = some (byte.toNat.testBit (7 - position)) := by
  match position, inside with
  | 0, _ | 1, _ | 2, _ | 3, _ | 4, _ | 5, _ | 6, _ | 7, _ => rfl

theorem getElem?_bytesBits (bytes : List UInt8) (position : Nat) :
    (bytesBits bytes)[position]? =
      bytes[position / 8]?.map fun byte => byte.toNat.testBit (7 - position % 8) := by
  induction bytes generalizing position with
  | nil => simp
  | cons byte bytes ih =>
    rw [bytesBits_cons, List.getElem?_append, length_byteBits]
    split
    · next inside =>
      have zero : position / 8 = 0 := by omega
      have same : position % 8 = position := by omega
      rw [getElem?_byteBits byte inside, zero, same, List.getElem?_cons_zero, Option.map_some]
    · next beyond =>
      have shifted : position / 8 = (position - 8) / 8 + 1 := by omega
      have same : position % 8 = (position - 8) % 8 := by omega
      rw [ih, shifted, same, List.getElem?_cons_succ]

theorem Pattern.bitAt_eq (bytes : List UInt8) (position : Nat) :
    bitAt bytes position = (bytesBits bytes)[position]?.getD false := by
  unfold bitAt
  rw [getElem?_bytesBits]
  cases bytes[position / 8]? <;> rfl

theorem byteBits_injective {first second : UInt8} (same : byteBits first = byteBits second) :
    first = second := by
  apply UInt8.toNat_inj.mp
  apply Nat.eq_of_testBit_eq
  intro index
  by_cases small : index < 8
  · have at_index := congrArg (fun bits => bits[7 - index]?) same
    simp only [getElem?_byteBits _ (show 7 - index < 8 by omega), Option.some.injEq] at at_index
    rwa [show 7 - (7 - index) = index by omega] at at_index
  · -- Beyond the eighth bit both are zero.
    have large : UInt8.size ≤ Nat.pow 2 index :=
      Nat.pow_le_pow_right (Nat.zero_lt_succ 1) (Nat.le_of_not_lt small)
    rw [Nat.testBit_lt_two_pow (Nat.lt_of_lt_of_le first.toNat_lt_size large),
      Nat.testBit_lt_two_pow (Nat.lt_of_lt_of_le second.toNat_lt_size large)]

theorem Pattern.getElem?_of_lt {bytes : List UInt8} {position : Nat}
    (inside : position < 8 * bytes.length) :
    (bytesBits bytes)[position]? = some (bitAt bytes position) := by
  rw [bitAt_eq]
  rw [← length_bytesBits] at inside
  rw [List.getElem?_eq_getElem inside]
  rfl

theorem Pattern.bitAt_congr {first second : List UInt8} {position : Nat}
    (same : first[position / 8]? = second[position / 8]?) :
    bitAt first position = bitAt second position := by
  unfold bitAt
  rw [same]

theorem Pattern.getElem?_eq_of_bitAt {first second : List UInt8} {index : Nat}
    (left : index < first.length) (right : index < second.length)
    (same : ∀ position, position / 8 = index → bitAt first position = bitAt second position) :
    first[index]? = second[index]? := by
  rw [List.getElem?_eq_getElem left, List.getElem?_eq_getElem right]
  refine congrArg some (byteBits_injective (List.ext_getElem? fun offset => ?_))
  by_cases inside : offset < 8
  · have bits := same (8 * index + offset) (by omega)
    simp only [bitAt, show (8 * index + offset) / 8 = index by omega,
      show (8 * index + offset) % 8 = offset by omega, List.getElem?_eq_getElem left,
      List.getElem?_eq_getElem right] at bits
    rw [getElem?_byteBits _ inside, getElem?_byteBits _ inside, bits]
  · rw [List.getElem?_eq_none (by simpa using inside), List.getElem?_eq_none (by simpa using inside)]

def packByte (bits : List Bool) : UInt8 :=
  UInt8.ofNat (bits.foldl (fun value bit => 2 * value + bit.toNat) 0)

/-- The bytes with the given bits. What does not fill a byte at the end is dropped. -/
def packBytes : List Bool → List UInt8
  | a :: b :: c :: d :: e :: f :: g :: h :: rest => packByte [a, b, c, d, e, f, g, h] :: packBytes rest
  | _ => []

theorem byteBits_packByte (a b c d e f g h : Bool) :
    byteBits (packByte [a, b, c, d, e, f, g, h]) = [a, b, c, d, e, f, g, h] := by
  revert a b c d e f g h
  decide +kernel

theorem bytesBits_packBytes (count : Nat) (bits : List Bool) (whole : bits.length = 8 * count) :
    bytesBits (packBytes bits) = bits := by
  induction count generalizing bits with
  | zero =>
    rw [List.eq_nil_of_length_eq_zero whole]
    rfl
  | succ count ih =>
    match bits, whole with
    | a :: b :: c :: d :: e :: f :: g :: h :: rest, whole =>
      have shorter : rest.length = 8 * count := by
        simp only [List.length_cons] at whole
        omega
      rw [packBytes, bytesBits_cons, byteBits_packByte, ih rest shorter]
      rfl

namespace Pattern

@[simp] theorem agrees_nil (data : List Bool) : agrees [] data = true := by
  simp [agrees]

@[simp] theorem agrees_nil_right (bits : List Bit) : agrees bits [] = true := by
  simp [agrees]

@[simp] theorem agrees_cons (bit : Bit) (bits : List Bit) (value : Bool) (data : List Bool) :
    agrees (bit :: bits) (value :: data) = (admits bit value && agrees bits data) := by
  simp [agrees]

theorem agrees_append (bits : List Bit) (data rest : List Bool) :
    agrees bits (data ++ rest) = (agrees bits data && agrees (bits.drop data.length) rest) := by
  induction data generalizing bits with
  | nil => simp
  | cons value data ih =>
    cases bits with
    | nil => simp
    | cons bit bits => simp [ih, Bool.and_assoc]

theorem agrees_take (bits : List Bit) (data : List Bool) :
    agrees bits (data.take bits.length) = agrees bits data := by
  induction data generalizing bits with
  | nil => simp
  | cons value data ih =>
    cases bits with
    | nil => simp
    | cons bit bits => simp [ih]

theorem agrees_iff {bits : List Bit} {data : List Bool} :
    agrees bits data = true ↔ ∀ (position : Nat) (bit : Bit) (value : Bool),
      bits[position]? = some bit → data[position]? = some value → admits bit value = true := by
  induction data generalizing bits with
  | nil => simp
  | cons value data ih =>
    cases bits with
    | nil => simp
    | cons bit bits =>
      rw [agrees_cons, Bool.and_eq_true, ih]
      constructor
      · rintro ⟨head, tail⟩ position other stored
        cases position with
        | zero =>
          intro first second
          cases first
          cases second
          exact head
        | succ position => exact tail position other stored
      · intro all
        exact ⟨all 0 bit value rfl rfl, fun position => all (position + 1)⟩

theorem value_of_agrees {bits : List Bit} {data : List Bool} (agree : agrees bits data = true)
    {position : Nat} {value stored : Bool} (bit : bits[position]? = some (.fixed value))
    (datum : data[position]? = some stored) : stored = value := by
  have admitted := agrees_iff.mp agree position _ _ bit datum
  simp only [admits, beq_iff_eq] at admitted
  exact admitted.symm

/-- The pattern describes whole bytes: at least one, and at most as many as
the longest encoding has. -/
def IsWhole (pattern : Pattern) (longest : Nat) : Prop :=
  pattern.bits.length = 8 * pattern.length ∧ 0 < pattern.length ∧ pattern.length ≤ longest

instance (pattern : Pattern) (longest : Nat) : Decidable (pattern.IsWhole longest) :=
  inferInstanceAs (Decidable (_ ∧ _ ∧ _))

section
variable {pattern : Pattern} {longest : Nat}

theorem compare_eq (whole : pattern.IsWhole longest) (bytes : List UInt8) :
    pattern.compare bytes =
      if agrees pattern.bits (bytesBits bytes) then
        if bytes.length < pattern.length then .incomplete else .full
      else .mismatch := by
  unfold compare
  rw [bytesBits_take, ← whole.1, agrees_take]
  cases agrees pattern.bits (bytesBits bytes) <;> rfl

theorem compare_eq_full_iff (whole : pattern.IsWhole longest) {bytes : List UInt8} :
    pattern.compare bytes = .full ↔
      agrees pattern.bits (bytesBits bytes) = true ∧ pattern.length ≤ bytes.length := by
  rw [compare_eq whole]
  split
  · next agree =>
    split
    · next short => simp [agree, Nat.not_le_of_lt short]
    · next long => simp [agree, Nat.le_of_not_lt long]
  · next differ => simp [differ]

theorem compare_eq_incomplete_iff (whole : pattern.IsWhole longest) {bytes : List UInt8} :
    pattern.compare bytes = .incomplete ↔
      agrees pattern.bits (bytesBits bytes) = true ∧ bytes.length < pattern.length := by
  rw [compare_eq whole]
  split
  · next agree =>
    split
    · next short => simp [agree, short]
    · next long => simp [agree, long]
  · next differ => simp [differ]

theorem compare_eq_full_iff_bitAt (whole : pattern.IsWhole longest) {bytes : List UInt8} :
    pattern.compare bytes = .full ↔ pattern.length ≤ bytes.length ∧
      ∀ (position : Nat) (value : Bool), pattern.bits[position]? = some (.fixed value) →
        bitAt bytes position = value := by
  rw [compare_eq_full_iff whole, and_comm]
  refine and_congr_right fun covered => ⟨fun agree position value bit => ?_, fun fixed => ?_⟩
  · have inside := (List.getElem?_eq_some_iff.mp bit).1
    rw [whole.1] at inside
    exact value_of_agrees agree bit (getElem?_of_lt (by omega))
  · refine agrees_iff.mpr fun position bit value stored datum => ?_
    cases bit with
    | field letter => rfl
    | fixed expected =>
      have actual := fixed position expected stored
      rw [bitAt_eq, datum] at actual
      exact beq_iff_eq.mpr actual.symm

end

def fixedMask : List Bit → Nat
  | [] => 0
  | bit :: bits => 2 * fixedMask bits + (isFixed bit).toNat

def fixedValue : List Bit → Nat
  | [] => 0
  | bit :: bits => 2 * fixedValue bits + (bit == .fixed true).toNat

def clashes (first second : Pattern) : Bool :=
  Nat.blt 0 (Nat.land (Nat.land (fixedMask first.bits) (fixedMask second.bits))
    (Nat.xor (fixedValue first.bits) (fixedValue second.bits)))

theorem testBit_shifted (value : Nat) (bit : Bool) (index : Nat) :
    (2 * value + bit.toNat).testBit index =
      if index = 0 then bit else value.testBit (index - 1) := by
  have digit := bit.toNat_lt
  cases index with
  | zero =>
    have low : (2 * value + bit.toNat) % 2 = bit.toNat := by omega
    rw [Nat.testBit_zero, low]
    cases bit <;> rfl
  | succ index =>
    have high : (2 * value + bit.toNat) / 2 = value := by omega
    rw [Nat.testBit_succ, high]
    rfl

theorem testBit_fixedMask (bits : List Bit) (position : Nat) :
    (fixedMask bits).testBit position = (bits[position]?.map isFixed).getD false := by
  induction bits generalizing position with
  | nil => simp [fixedMask]
  | cons bit bits ih =>
    rw [fixedMask, testBit_shifted]
    cases position with
    | zero => rfl
    | succ position => simpa using ih position

theorem testBit_fixedValue (bits : List Bit) (position : Nat) :
    (fixedValue bits).testBit position = (bits[position]?.map (· == .fixed true)).getD false := by
  induction bits generalizing position with
  | nil => simp [fixedValue]
  | cons bit bits ih =>
    rw [fixedValue, testBit_shifted]
    cases position with
    | zero => rfl
    | succ position => simpa using ih position

theorem exists_of_clashes {first second : Pattern} (clash : first.clashes second = true) :
    ∃ (position : Nat) (value : Bool),
      first.bits[position]? = some (.fixed value) ∧
      second.bits[position]? = some (.fixed (!value)) := by
  have positive : Nat.land (Nat.land (fixedMask first.bits) (fixedMask second.bits))
      (Nat.xor (fixedValue first.bits) (fixedValue second.bits)) ≠ 0 := by
    have above := Nat.lt_of_lt_of_le (Nat.zero_lt_succ 0) (Nat.le_of_ble_eq_true clash)
    omega
  -- The bit that is set is fixed in both patterns, with different values.
  obtain ⟨position, set⟩ := Nat.exists_testBit_of_ne_zero positive
  refine ⟨position, ?_⟩
  change Nat.testBit (_ &&& _ &&& (_ ^^^ _)) position = true at set
  rw [Nat.testBit_and, Nat.testBit_and, Nat.testBit_xor, testBit_fixedMask, testBit_fixedMask,
    testBit_fixedValue, testBit_fixedValue] at set
  cases left : first.bits[position]? with
  | none => simp [left] at set
  | some bit =>
    cases right : second.bits[position]? with
    | none => simp [right] at set
    | some other =>
      simp only [left, right, Option.map_some, Option.getD_some, Bool.and_eq_true] at set
      revert set
      cases bit with
      | field letter => simp [isFixed]
      | fixed value =>
        cases other with
        | field letter => simp [isFixed]
        | fixed other => cases value <;> cases other <;> simp

/-- Data that covers the shorter of two clashing patterns agrees with at most
one of them. -/
theorem not_agrees_of_clashes {first second : Pattern} (clash : first.clashes second = true)
    {data : List Bool} (covers : min first.bits.length second.bits.length ≤ data.length)
    (agree : agrees first.bits data = true) : agrees second.bits data = false := by
  apply Bool.eq_false_iff.mpr
  intro other
  obtain ⟨position, value, left, right⟩ := exists_of_clashes clash
  obtain ⟨leftInside, -⟩ := List.getElem?_eq_some_iff.mp left
  obtain ⟨rightInside, -⟩ := List.getElem?_eq_some_iff.mp right
  have inside : position < data.length := by omega
  have stored := List.getElem?_eq_getElem inside
  have same := value_of_agrees agree left stored
  rw [value_of_agrees other right stored] at same
  cases value <;> simp at same

end Pattern

end H8.Encoding
