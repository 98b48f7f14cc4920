import H8.Decode
import H8.Proofs.Encoding.Agreement
import Mathlib.Data.List.Pairwise

/-! How the opcodes of a table may share encodings.

Two opcodes of a separated table either clash, or have the same length and
differ in how specific they are. Then no encoding is the beginning of a longer
one, and whichever opcodes match the same bytes are strictly ranked. All that
is said about decoding rests on this; the table is checked pair by pair.
-/

set_option autoImplicit false

namespace H8.Encoding

def Slot.isWide : Slot → Bool
  | .dispLong _ _ | .absLong _ | .abs24 _ => true
  | _ => false

def Opcode.isWide (opcode : Opcode) : Bool := opcode.slots.any Slot.isWide

/-- Two opcodes that do not compete, or of which one is more specific. Opcodes
with wide fields never compete. -/
def Opcode.apart (first second : Opcode) : Bool :=
  first.pattern.clashes second.pattern ||
    (first.pattern.length == second.pattern.length &&
      first.pattern.fixedBits != second.pattern.fixedBits &&
      !first.isWide && !second.isWide)

theorem Pattern.clashes_comm (first second : Pattern) :
    first.clashes second = second.clashes first := by
  have masks := Nat.and_comm (fixedMask first.bits) (fixedMask second.bits)
  have values := Nat.xor_comm (fixedValue first.bits) (fixedValue second.bits)
  unfold clashes
  exact congrArg (Nat.blt 0) (congrArg₂ Nat.land masks values)

theorem Opcode.apart_eq_true {first second : Opcode} :
    first.apart second = true ↔ first.pattern.clashes second.pattern = true ∨
      first.pattern.length = second.pattern.length ∧
        first.pattern.fixedBits ≠ second.pattern.fixedBits ∧
        first.isWide = false ∧ second.isWide = false := by
  simp [apart, and_assoc]

theorem Opcode.apart_symm {first second : Opcode} (apart : first.apart second = true) :
    second.apart first = true := by
  rw [apart_eq_true] at apart ⊢
  rcases apart with clash | ⟨length, bits, left, right⟩
  · exact .inl (Pattern.clashes_comm first.pattern second.pattern ▸ clash)
  · exact .inr ⟨length.symm, bits.symm, right, left⟩

/-- Whether a relation holds between each item and all later ones. Faster to
evaluate than the decision of `List.Pairwise`. -/
def allPairs {Item : Type} (related : Item → Item → Bool) : List Item → Bool
  | [] => true
  | item :: items => items.all (related item) && allPairs related items

theorem pairwise_of_allPairs {Item : Type} {related : Item → Item → Bool} {items : List Item}
    (all : allPairs related items = true) :
    items.Pairwise fun first second => related first second = true := by
  induction items with
  | nil => exact .nil
  | cons item items ih =>
    simp only [allPairs, Bool.and_eq_true, List.all_eq_true] at all
    exact .cons all.1 (ih all.2)

structure Separated (table : List Opcode) : Prop where
  whole : ∀ opcode ∈ table, opcode.pattern.IsWhole maxInstructionLength
  apart : table.Pairwise fun first second => first.apart second = true

theorem separated_opcodes : Separated opcodes where
  whole := by decide +kernel
  apart := pairwise_of_allPairs (by decide +kernel)

namespace Separated
variable {table : List Opcode} (separated : Separated table)

include separated

theorem perm {other : List Opcode} (same : other.Perm table) : Separated other where
  whole opcode member := separated.whole opcode (same.mem_iff.mp member)
  apart := separated.apart.perm same.symm Opcode.apart_symm

theorem apart_of_ne {first second : Opcode} (left : first ∈ table) (right : second ∈ table)
    (different : first ≠ second) : first.apart second = true := by
  have : Std.Symm fun first second : Opcode => first.apart second = true :=
    ⟨fun _ _ => Opcode.apart_symm⟩
  exact separated.apart.forall left right different

theorem nodup : table.Nodup := by
  apply separated.apart.imp
  intro first second apart same
  subst second
  rcases Opcode.apart_eq_true.mp apart with clash | ⟨-, bits, -⟩
  · obtain ⟨position, value, left, right⟩ := Pattern.exists_of_clashes clash
    rw [left] at right
    cases value <;> simp at right
  · exact bits rfl

/-- Bytes that one opcode matches do not agree with one that it clashes with. -/
theorem not_clashes {first second : Opcode} (left : first ∈ table) (right : second ∈ table)
    {bytes : List UInt8} (full : first.pattern.compare bytes = .full)
    (agree : second.pattern.compare bytes ≠ .mismatch) :
    first.pattern.clashes second.pattern = false := by
  have leftWhole := separated.whole first left
  have rightWhole := separated.whole second right
  apply Bool.eq_false_iff.mpr
  intro clash
  obtain ⟨leftAgrees, covered⟩ := (Pattern.compare_eq_full_iff leftWhole).mp full
  -- The matched bytes reach the bit at which the two clash.
  have covers : min first.pattern.bits.length second.pattern.bits.length ≤
      (bytesBits bytes).length := by
    rw [leftWhole.1, length_bytesBits]
    omega
  have rightDiffers := Pattern.not_agrees_of_clashes clash covers leftAgrees
  rw [Pattern.compare_eq rightWhole, rightDiffers] at agree
  exact agree rfl

/-- Whatever agrees with bytes that one opcode matches is that opcode, or a
competitor of the same length. -/
theorem compete {first second : Opcode} (left : first ∈ table) (right : second ∈ table)
    {bytes : List UInt8} (full : first.pattern.compare bytes = .full)
    (agree : second.pattern.compare bytes ≠ .mismatch) (different : first ≠ second) :
    first.pattern.length = second.pattern.length ∧
      first.pattern.fixedBits ≠ second.pattern.fixedBits ∧
      first.isWide = false ∧ second.isWide = false := by
  have compatible := separated.not_clashes left right full agree
  rcases Opcode.apart_eq_true.mp (separated.apart_of_ne left right different) with
    clash | competitors
  · rw [compatible] at clash
    cases clash
  · exact competitors

theorem not_incomplete {first second : Opcode} (left : first ∈ table) (right : second ∈ table)
    {bytes : List UInt8} (full : first.pattern.compare bytes = .full) :
    second.pattern.compare bytes ≠ .incomplete := by
  intro cut
  have covered := ((Pattern.compare_eq_full_iff (separated.whole first left)).mp full).2
  have short := ((Pattern.compare_eq_incomplete_iff (separated.whole second right)).mp cut).2
  by_cases same : first = second
  · subst second
    omega
  · have length := (separated.compete left right full (by simp [cut]) same).1
    omega

end Separated

end H8.Encoding
