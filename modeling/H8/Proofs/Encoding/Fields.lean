import H8.Proofs.Encoding.Agreement
import Mathlib.Data.List.Induction
import Mathlib.Tactic.Ring

/-! Values of fields.

A field is a number whose binary digits stand at its positions in the bytes,
most significant first. So its value modulo a power of two and the bits at its
last positions determine each other.
-/

set_option autoImplicit false

namespace H8.Encoding

def gather (digits : List Bool) : Nat :=
  digits.foldl (fun value digit => 2 * value + digit.toNat) 0

theorem foldl_digits (digits : List Bool) (start : Nat) :
    digits.foldl (fun value digit => 2 * value + digit.toNat) start =
      start * 2 ^ digits.length + gather digits := by
  unfold gather
  induction digits generalizing start with
  | nil => simp
  | cons digit digits ih =>
    simp only [List.foldl_cons, List.length_cons]
    rw [ih (2 * start + digit.toNat), ih (2 * 0 + digit.toNat), Nat.pow_succ]
    ring

theorem gather_append (first second : List Bool) :
    gather (first ++ second) = gather first * 2 ^ second.length + gather second := by
  unfold gather
  rw [List.foldl_append, foldl_digits]
  rfl

theorem gather_concat (digits : List Bool) (digit : Bool) :
    gather (digits ++ [digit]) = 2 * gather digits + digit.toNat := by
  rw [gather_append, Nat.mul_comm]
  simp [gather]

theorem gather_lt (digits : List Bool) : gather digits < 2 ^ digits.length := by
  induction digits using List.reverseRecOn with
  | nil => simp [gather]
  | append_singleton digits digit ih =>
    rw [gather_concat, List.length_append, List.length_singleton, Nat.pow_succ]
    cases digit <;> simp <;> omega

theorem gather_mod (digits : List Bool) (count : Nat) :
    gather digits % 2 ^ count = gather (digits.drop (digits.length - count)) := by
  have split := List.take_append_drop (digits.length - count) digits
  have tail := gather_lt (digits.drop (digits.length - count))
  have length : (digits.drop (digits.length - count)).length = min count digits.length := by
    rw [List.length_drop]
    omega
  rw [length] at tail
  conv_lhs => rw [← split, gather_append, length]
  by_cases short : count ≤ digits.length
  · rw [Nat.min_eq_left short] at tail ⊢
    rw [Nat.add_comm, Nat.add_mul_mod_self_right, Nat.mod_eq_of_lt tail]
  · -- There are fewer digits than asked for, and the value is below the modulus.
    have all : digits.length - count = 0 := by omega
    have bound : 2 ^ min count digits.length ≤ 2 ^ count :=
      Nat.pow_le_pow_right (by omega) (Nat.min_le_left _ _)
    rw [all, List.take_zero]
    simp only [gather, List.foldl_nil, Nat.zero_mul, Nat.zero_add, List.drop_zero]
    rw [all] at tail
    exact Nat.mod_eq_of_lt (Nat.lt_of_lt_of_le tail bound)

theorem eq_false_of_gather {digits : List Bool} (zero : gather digits = 0) :
    ∀ digit ∈ digits, digit = false := by
  induction digits using List.reverseRecOn with
  | nil => simp
  | append_singleton digits digit ih =>
    rw [gather_concat] at zero
    have last : digit = false := by
      cases digit with
      | false => rfl
      | true => simp at zero
    have earlier := ih (by omega)
    intro other member
    rcases List.mem_append.mp member with inside | new
    · exact earlier other inside
    · rw [List.mem_singleton.mp new, last]

theorem gather_injective {first second : List Bool} (length : first.length = second.length)
    (same : gather first = gather second) : first = second := by
  induction first using List.reverseRecOn generalizing second with
  | nil => exact (List.eq_nil_of_length_eq_zero length.symm).symm
  | append_singleton digits digit ih =>
    obtain ⟨others, other, rfl⟩ : ∃ others other, second = others ++ [other] := by
      refine ⟨second.dropLast, second.getLast ?_, (List.dropLast_concat_getLast _).symm⟩
      rintro rfl
      simp at length
    rw [gather_concat, gather_concat] at same
    -- The last digit is the parity of the value.
    have digits_eq : gather digits = gather others ∧ digit = other := by
      cases digit <;> cases other <;> simp at same ⊢ <;> omega
    have lengths : digits.length = others.length := by simpa using length
    rw [ih lengths digits_eq.1, digits_eq.2]

namespace Pattern

def digits (pattern : Pattern) (bytes : List UInt8) (letter : Char) : List Bool :=
  (pattern.positions letter).map (bitAt bytes)

theorem field_eq (pattern : Pattern) (bytes : List UInt8) (letter : Char) :
    pattern.field bytes letter = gather (pattern.digits bytes letter) % UInt32.size := by
  unfold field digits gather
  rw [List.foldl_map]

theorem field_lt (pattern : Pattern) (bytes : List UInt8) (letter : Char) :
    pattern.field bytes letter < UInt32.size := by
  rw [field_eq]
  exact Nat.mod_lt _ (by decide)

theorem field_lt_of_width {pattern : Pattern} {letter : Char} {width : Nat}
    (narrow : (pattern.positions letter).length ≤ width) (bytes : List UInt8) :
    pattern.field bytes letter < 2 ^ width := by
  have bound := gather_lt (pattern.digits bytes letter)
  rw [digits, List.length_map] at bound
  rw [field_eq]
  exact Nat.lt_of_le_of_lt (Nat.mod_le _ _)
    (Nat.lt_of_lt_of_le bound (Nat.pow_le_pow_right (by omega) narrow))

def lastPositions (pattern : Pattern) (letter : Char) (count : Nat) : List Nat :=
  (pattern.positions letter).drop ((pattern.positions letter).length - count)

theorem field_mod (pattern : Pattern) (bytes : List UInt8) (letter : Char) {count : Nat}
    (narrow : count ≤ 32) :
    pattern.field bytes letter % 2 ^ count =
      gather ((pattern.lastPositions letter count).map (bitAt bytes)) := by
  have divides : 2 ^ count ∣ UInt32.size := Nat.pow_dvd_pow 2 narrow
  rw [field_eq, Nat.mod_mod_of_dvd _ divides, gather_mod, digits, List.length_map, ← List.map_drop]
  rfl

theorem field_mod_eq_iff (pattern : Pattern) (first second : List UInt8) (letter : Char)
    {count : Nat} (narrow : count ≤ 32) :
    pattern.field first letter % 2 ^ count = pattern.field second letter % 2 ^ count ↔
      ∀ position ∈ pattern.lastPositions letter count,
        bitAt first position = bitAt second position := by
  rw [field_mod pattern first letter narrow, field_mod pattern second letter narrow]
  constructor
  · intro same
    have digits := gather_injective (by simp) same
    exact fun position member => List.map_inj_left.mp digits position member
  · intro same
    rw [List.map_inj_left.mpr same]

theorem field_congr {pattern : Pattern} {first second : List UInt8} {letter : Char}
    (same : ∀ position ∈ pattern.positions letter, bitAt first position = bitAt second position) :
    pattern.field first letter = pattern.field second letter := by
  rw [field_eq, field_eq, digits, digits, List.map_inj_left.mpr same]

theorem bitAt_of_field_eq_zero {pattern : Pattern} {bytes : List UInt8} {letter : Char}
    (narrow : (pattern.positions letter).length ≤ 32) (zero : pattern.field bytes letter = 0) :
    ∀ position ∈ pattern.positions letter, bitAt bytes position = false := by
  have bound := gather_lt (pattern.digits bytes letter)
  rw [digits, List.length_map] at bound
  have small : gather (pattern.digits bytes letter) < UInt32.size :=
    Nat.lt_of_lt_of_le bound (Nat.pow_le_pow_right (by omega) narrow)
  rw [field_eq, Nat.mod_eq_of_lt small] at zero
  intro position member
  exact eq_false_of_gather zero _ (List.mem_map.mpr ⟨position, member, rfl⟩)

theorem lt_of_mem_positions {pattern : Pattern} {letter : Char} {position : Nat}
    (member : position ∈ pattern.positions letter) : position < pattern.bits.length := by
  obtain ⟨⟨bit, index⟩, stored, found⟩ := List.mem_filterMap.mp member
  have inside := (List.getElem?_eq_some_iff.mp (List.mem_zipIdx_iff_getElem?.mp stored)).1
  simp only [Option.ite_none_right_eq_some, Option.some.injEq] at found
  have reduced := Nat.mod_le index UInt16.size
  omega

theorem mem_positions {pattern : Pattern} (short : pattern.bits.length ≤ UInt16.size)
    {letter : Char} {position : Nat} :
    position ∈ pattern.positions letter ↔ pattern.bits[position]? = some (.field letter) := by
  unfold positions
  rw [List.mem_filterMap]
  constructor
  · rintro ⟨⟨bit, index⟩, member, found⟩
    have stored := List.mem_zipIdx_iff_getElem?.mp member
    have inside := (List.getElem?_eq_some_iff.mp stored).1
    simp only [Option.ite_none_right_eq_some, Option.some.injEq] at found
    obtain ⟨rfl, rfl⟩ := found
    rwa [Nat.mod_eq_of_lt (Nat.lt_of_lt_of_le inside short)]
  · intro stored
    have inside := (List.getElem?_eq_some_iff.mp stored).1
    refine ⟨(.field letter, position), List.mem_zipIdx_iff_getElem?.mpr stored, ?_⟩
    simp [Nat.mod_eq_of_lt (Nat.lt_of_lt_of_le inside short)]

theorem mem_positions_of_mem_last {pattern : Pattern} {letter : Char} {count position : Nat}
    (member : position ∈ pattern.lastPositions letter count) :
    position ∈ pattern.positions letter :=
  List.mem_of_mem_drop member

theorem field_append {pattern : Pattern} {longest : Nat} (whole : pattern.IsWhole longest)
    {bytes : List UInt8} (covered : pattern.length ≤ bytes.length) (suffix : List UInt8)
    (letter : Char) : pattern.field (bytes ++ suffix) letter = pattern.field bytes letter := by
  apply field_congr
  intro position member
  have inside : position < (bytesBits bytes).length := by
    have below := lt_of_mem_positions member
    rw [whole.1] at below
    rw [length_bytesBits]
    omega
  rw [bitAt_eq, bitAt_eq, bytesBits_append, List.getElem?_append_left inside]

end Pattern

end H8.Encoding
