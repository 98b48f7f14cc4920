import H8.Database
import H8.Proofs.Memory
import Mathlib.Data.Nat.Digits.Defs
import Mathlib.Data.Nat.ModEq
import Mathlib.Tactic.Ring

/-! Numbers in memory are written to base 256.

A word into which bytes are shifted loses nothing as long as it has room for
them all, so its bits are those of the number with these digits. The analyses
put the digits of words and longs together by themselves and find the same
numbers, or none where the segment ends too early.
-/

set_option autoImplicit false

namespace H8

namespace ByteOrder

/-- The number whose digits to base 256 are the bytes, most significant first. -/
def positional (bytes : List UInt8) : Nat := Nat.ofDigits 256 (bytes.map UInt8.toNat).reverse

/-- A number of the given size in bytes, with the upper half of its range taken
as negative. -/
def twosComplement (size value : Nat) : Int :=
  if 2 * value < 256 ^ size then value else value - 256 ^ size

theorem positional_nil : positional [] = 0 := rfl

theorem positional_cons (byte : UInt8) (bytes : List UInt8) :
    positional (byte :: bytes) = byte.toNat * 256 ^ bytes.length + positional bytes := by
  unfold positional
  rw [List.map_cons, List.reverse_cons, Nat.ofDigits_append, Nat.ofDigits_singleton,
    List.length_reverse, List.length_map]
  ring

theorem positional_lt (bytes : List UInt8) : positional bytes < 256 ^ bytes.length := by
  have digits : ∀ digit ∈ (bytes.map UInt8.toNat).reverse, digit < 256 := by
    intro digit member
    obtain ⟨byte, -, rfl⟩ := List.mem_map.mp (List.mem_reverse.mp member)
    exact byte.toNat_lt
  simpa [positional] using Nat.ofDigits_lt_base_pow_length (by decide) digits

section
variable {width : Nat} (isSigned : Bool)

/-- Words of two bytes and more hold every byte, also those that are signed. -/
theorem unit?_eq_some (wide : 16 ≤ width) (byte : UInt8) :
    unit? isSigned width byte = some (BitVec.ofNat width byte.toNat) := by
  have enough : 8 ≤ if isSigned then width - 1 else width := by split <;> omega
  have room : 2 ^ 8 ≤ 2 ^ if isSigned then width - 1 else width :=
    Nat.pow_le_pow_right (by decide) enough
  exact if_pos (Nat.lt_of_lt_of_le byte.toNat_lt room)

theorem toNat_shiftLeft_or (wide : 8 ≤ width) (word : BitVec width) (byte : UInt8) :
    (word.shiftLeft 8 ||| BitVec.ofNat width byte.toNat).toNat =
      (word.toNat * 256 + byte.toNat) % 2 ^ width := by
  have small : byte.toNat < 2 ^ 8 := byte.toNat_lt
  have split : 2 ^ width = 2 ^ (width - 8) * 2 ^ 8 := by rw [← Nat.pow_add, Nat.sub_add_cancel wide]
  have fits : byte.toNat < 2 ^ width :=
    Nat.lt_of_lt_of_le small (Nat.pow_le_pow_right (by decide) wide)
  have shifted : (word.shiftLeft 8).toNat = word.toNat % 2 ^ (width - 8) * 2 ^ 8 := by
    change (word <<< 8).toNat = _
    rw [BitVec.toNat_shiftLeft, Nat.shiftLeft_eq, split, Nat.mul_mod_mul_right]
  calc (word.shiftLeft 8 ||| BitVec.ofNat width byte.toNat).toNat
      = word.toNat % 2 ^ (width - 8) * 2 ^ 8 ||| byte.toNat := by
        rw [BitVec.toNat_or, shifted, BitVec.toNat_ofNat, Nat.mod_eq_of_lt fits]
    _ = word.toNat % 2 ^ (width - 8) * 2 ^ 8 + byte.toNat := by
        rw [← Nat.shiftLeft_eq, ← Nat.shiftLeft_add_eq_or_of_lt small]
    _ = (word.toNat * 2 ^ 8 + byte.toNat) % 2 ^ width := by
        rw [split, Nat.mul_comm (2 ^ (width - 8)), Nat.mod_mul, Nat.mul_comm word.toNat,
          Nat.mul_add_mod, Nat.mul_add_div (by decide), Nat.div_eq_of_lt small, Nat.mod_eq_of_lt small]
        ring_nf

theorem foldlM_shiftIn? (wide : 16 ≤ width) (bytes : List UInt8) (word : BitVec width) :
    ∃ filled, bytes.foldlM (shiftIn? isSigned) word = some filled ∧
      filled.toNat = (word.toNat * 256 ^ bytes.length + positional bytes) % 2 ^ width := by
  induction bytes generalizing word with
  | nil => exact ⟨word, rfl, by simp [positional, Nat.mod_eq_of_lt word.isLt]⟩
  | cons byte bytes ih =>
    obtain ⟨filled, rest, value⟩ := ih (word.shiftLeft 8 ||| BitVec.ofNat width byte.toNat)
    refine ⟨filled, ?_, ?_⟩
    · rw [List.foldlM_cons, shiftIn?, unit?_eq_some isSigned wide]
      exact rest
    · rw [value, toNat_shiftLeft_or (by omega)]
      calc ((word.toNat * 256 + byte.toNat) % 2 ^ width * 256 ^ bytes.length + positional bytes) % 2 ^ width
          = ((word.toNat * 256 + byte.toNat) * 256 ^ bytes.length + positional bytes) % 2 ^ width :=
            ((Nat.mod_modEq _ _).mul_right _).add_right _
        _ = (word.toNat * 256 ^ (byte :: bytes).length + positional (byte :: bytes)) % 2 ^ width := by
            rw [positional_cons, List.length_cons]
            ring_nf

end

variable {order : ByteOrder} {size : Nat} {bytes : List UInt8}

theorem length_arrange (order : ByteOrder) (bytes : List UInt8) :
    (order.arrange bytes).length = bytes.length := by
  cases order with
  | little => exact List.length_reverse
  | big => rfl

/-- Bytes that are as many as the number needs fill its word exactly. -/
theorem word?_eq_some (wide : 2 ≤ size) (whole : bytes.length = size) (order : ByteOrder)
    (isSigned : Bool) : order.word? isSigned size bytes =
      some (BitVec.ofNat (8 * size) (positional (order.arrange bytes))) := by
  obtain ⟨word, shifted, value⟩ :=
    foldlM_shiftIn? isSigned (by omega) (order.arrange bytes) (BitVec.zero (8 * size))
  rw [word?, if_pos whole, shifted]
  congr 1
  apply BitVec.eq_of_toNat_eq
  rw [value, BitVec.toNat_ofNat]
  simp

theorem word?_eq_none (other : bytes.length ≠ size) (order : ByteOrder) (isSigned : Bool) :
    order.word? isSigned size bytes = none :=
  if_neg other

theorem positional_arrange_lt (whole : bytes.length = size) (order : ByteOrder) :
    positional (order.arrange bytes) < 2 ^ (8 * size) := by
  have bound := positional_lt (order.arrange bytes)
  rwa [length_arrange, whole, show 256 = 2 ^ 8 from rfl, ← Nat.pow_mul] at bound

theorem assemble_eq_some (wide : 2 ≤ size) (whole : bytes.length = size) (order : ByteOrder) :
    order.assemble size bytes = some (positional (order.arrange bytes)) := by
  rw [assemble, word?_eq_some wide whole, Option.map_some, BitVec.toNat_ofNat,
    Nat.mod_eq_of_lt (positional_arrange_lt whole order)]

theorem assembleSigned_eq_some (wide : 2 ≤ size) (whole : bytes.length = size) (order : ByteOrder) :
    order.assembleSigned size bytes =
      some (twosComplement size (positional (order.arrange bytes))) := by
  have range : 2 ^ (8 * size) = 256 ^ size := Nat.pow_mul 2 8 size
  rw [assembleSigned, word?_eq_some wide whole, Option.map_some, BitVec.toInt_eq_toNat_cond,
    BitVec.toNat_ofNat, Nat.mod_eq_of_lt (positional_arrange_lt whole order), range, twosComplement,
    Nat.cast_pow]
  rfl

theorem assemble_eq_none_iff (wide : 2 ≤ size) (order : ByteOrder) :
    order.assemble size bytes = none ↔ bytes.length ≠ size := by
  by_cases whole : bytes.length = size
  · simp [assemble_eq_some wide whole, whole]
  · simp [assemble, word?_eq_none whole, whole]

theorem assembleSigned_eq_none_iff (wide : 2 ≤ size) (order : ByteOrder) :
    order.assembleSigned size bytes = none ↔ bytes.length ≠ size := by
  by_cases whole : bytes.length = size
  · simp [assembleSigned_eq_some wide whole, whole]
  · simp [assembleSigned, word?_eq_none whole, whole]

theorem word?_little (isSigned : Bool) (size : Nat) (bytes : List UInt8) :
    little.word? isSigned size bytes = big.word? isSigned size bytes.reverse := by
  unfold word? arrange
  rw [List.length_reverse]

end ByteOrder

open ByteOrder

namespace Memory
variable {memory : Memory} {address : Address} {size : Nat}

def Holds (memory : Memory) (address : Address) (size : Nat) : Prop :=
  ∃ segment, memory.segmentAt? address = some segment ∧
    address.toNat + size ≤ segment.start.toNat + segment.data.size

theorem length_read_eq_iff (positive : 0 < size) :
    (memory.read address size).length = size ↔ memory.Holds address size := by
  unfold Holds
  cases found : memory.segmentAt? address with
  | none =>
    simp only [read, found, List.length_nil, reduceCtorEq, false_and, exists_false, iff_false]
    omega
  | some segment =>
    have bounds := Segment.lt_of_contains (contains_of_segmentAt? found)
    simp only [read_eq found, List.length_take, List.length_drop, Array.length_toList,
      Option.some.injEq, exists_eq_left']
    omega

theorem readNumber?_eq_none_iff (wide : 2 ≤ size) :
    memory.readNumber? address size = none ↔ ¬ memory.Holds address size := by
  rw [readNumber?, assemble_eq_none_iff wide, ← length_read_eq_iff (by omega)]

end Memory

namespace View
variable (view : View) (address : Address)

theorem readWord?_eq : view.readWord? address = big.assemble 2 (view.read address 2) := by
  unfold readWord?
  generalize view.read address 2 = bytes
  split
  · next high low =>
    have whole : [high, low].length = 2 := rfl
    rw [assemble_eq_some (by decide) whole]
    simp only [arrange, positional_cons, positional_nil, List.length_cons, List.length_nil,
      Nat.reduceAdd, Nat.reducePow, Option.some.injEq]
    omega
  · next other =>
    refine ((assemble_eq_none_iff (by decide) big).mpr fun whole => ?_).symm
    match bytes, whole with
    | [high, low], _ => exact other high low rfl

theorem readLong?_eq : view.readLong? address = big.assemble 4 (view.read address 4) := by
  unfold readLong?
  generalize view.read address 4 = bytes
  split
  · next a b c d =>
    have whole : [a, b, c, d].length = 4 := rfl
    rw [assemble_eq_some (by decide) whole]
    simp only [arrange, positional_cons, positional_nil, List.length_cons, List.length_nil,
      Nat.reduceAdd, Nat.reducePow, Option.some.injEq]
    omega
  · next other =>
    refine ((assemble_eq_none_iff (by decide) big).mpr fun whole => ?_).symm
    match bytes, whole with
    | [a, b, c, d], _ => exact other a b c d rfl

end View

/-- The two readers of words and longs agree everywhere, and fail exactly where the
segment ends before the number does. Bytes make a number of two bytes or more
exactly if they are as many as it has: the one that they are the digits of, with
the upper half of its range taken as negative if it is signed, and from the low
end the one of the reversed bytes. -/
theorem number_readers_agree :
    (∀ (database : Database) (address : Address),
      database.readWord? address = database.view.readWord? address ∧
      database.readLong? address = database.view.readLong? address ∧
      (database.readWord? address = none ↔ ¬ database.memory.Holds address 2) ∧
      (database.readLong? address = none ↔ ¬ database.memory.Holds address 4)) ∧
    ∀ size : Nat, 2 ≤ size → ∀ bytes : List UInt8,
      (∀ order : ByteOrder, (order.assemble size bytes = none ↔ bytes.length ≠ size) ∧
        (order.assembleSigned size bytes = none ↔ bytes.length ≠ size)) ∧
      (bytes.length = size → big.assemble size bytes = some (positional bytes) ∧
        big.assembleSigned size bytes = some (twosComplement size (positional bytes))) ∧
      little.assemble size bytes = big.assemble size bytes.reverse ∧
      little.assembleSigned size bytes = big.assembleSigned size bytes.reverse := by
  constructor
  · intro database address
    refine ⟨(database.view.readWord?_eq address).symm, (database.view.readLong?_eq address).symm, ?_, ?_⟩
    · exact Memory.readNumber?_eq_none_iff (by decide)
    · exact Memory.readNumber?_eq_none_iff (by decide)
  · intro size wide bytes
    refine ⟨fun order => ⟨assemble_eq_none_iff wide order, assembleSigned_eq_none_iff wide order⟩,
      fun whole => ⟨assemble_eq_some wide whole big, assembleSigned_eq_some wide whole big⟩, ?_, ?_⟩
    · exact congrArg (Option.map BitVec.toNat) (word?_little false size bytes)
    · exact congrArg (Option.map BitVec.toInt) (word?_little true size bytes)

/-- The last byte of an image is no word. Eight bytes of which only one is not full are
a negative number from either end, and seven are none. -/
theorem number_readers_agree_last_byte :
    let database := Database.ofMemory (Memory.ofImage #[0x12, 0x34, 0x56, 0x78, 0x9A] 0x100)
    let bytes : List UInt8 := [0xFE, 0xFF, 0xFF, 0xFF, 0xFF, 0xFF, 0xFF, 0xFF]
    database.readLong? 0x101 = some 0x3456789A ∧ database.view.readLong? 0x101 = some 0x3456789A ∧
      database.view.readWord? 0x104 = none ∧ ¬ database.memory.Holds 0x104 2 ∧
      2 ≤ 8 ∧ bytes.length = 8 ∧
      big.assembleSigned 8 bytes = some (twosComplement 8 (positional bytes)) ∧
      little.assembleSigned 8 bytes = some (-2) ∧ little.assembleSigned 8 bytes.tail = none := by
  intro database bytes
  obtain ⟨agree, digits⟩ := number_readers_agree
  obtain ⟨-, long, -, -⟩ := agree database 0x101
  obtain ⟨word, -, short, -⟩ := agree database 0x104
  have wide : 2 ≤ 8 := by decide
  have whole : bytes.length = 8 := rfl
  obtain ⟨-, value, -, reversed⟩ := digits 8 wide bytes
  obtain ⟨fails, -⟩ := digits 8 wide bytes.tail
  have read : database.readLong? 0x101 = some 0x3456789A := by decide
  have none : database.readWord? 0x104 = none := by decide
  refine ⟨read, long ▸ read, word ▸ none, short.mp none, wide, whole, (value whole).2, ?_, ?_⟩
  · rw [reversed]
    decide
  · exact (fails little).2.mpr (by decide)

end H8
