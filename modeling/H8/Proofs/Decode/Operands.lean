import H8.Proofs.Decode.Build
import Mathlib.Tactic.Ring

/-! What an operand tells about the fields it was made from.

An operand keeps the lowest bits of each of its fields and nothing else. How
many it keeps depends on its slot, and for long addresses on the address space.
-/

set_option autoImplicit false

namespace H8

open Encoding

def Space.bits : Space → Nat
  | .normal => 16
  | .advanced => 24

section
variable (mode : Mode)

theorem toNat_and_addressMask (address : Address) :
    (address &&& mode.addressMask).toNat = address.toNat % 2 ^ mode.space.bits := by
  rw [UInt32.toNat_and]
  obtain ⟨core, space⟩ := mode
  cases space with
  | normal => exact Nat.and_two_pow_sub_one_eq_mod address.toNat 16
  | advanced => exact Nat.and_two_pow_sub_one_eq_mod address.toNat 24

theorem toNat_longAbsolute (value : Nat) :
    (longAbsolute mode value).toNat = value % 2 ^ mode.space.bits := by
  have size : 2 ^ 24 ∣ UInt32.size := Nat.pow_dvd_pow 2 (by omega : 24 ≤ 32)
  unfold longAbsolute
  rw [toNat_and_addressMask, UInt32.toNat_ofNat']
  change value % 2 ^ 24 % UInt32.size % _ = _
  rw [Nat.mod_eq_of_lt (a := value % 2 ^ 24)
    (Nat.lt_of_lt_of_le (Nat.mod_lt _ (by omega)) (Nat.le_of_dvd (by decide) size))]
  cases mode.space with
  | normal => exact Nat.mod_mod_of_dvd value (Nat.pow_dvd_pow 2 (by decide : 16 ≤ 24))
  | advanced => exact Nat.mod_mod_of_dvd value (Nat.dvd_refl _)

theorem toNat_ofInt_mod (value : Int) {bits : Nat} (narrow : bits ≤ 32) :
    ((UInt32.ofInt value).toNat : Int) % (2 ^ bits : Nat) = value % (2 ^ bits : Nat) := by
  have divides : ((2 ^ bits : Nat) : Int) ∣ (UInt32.size : Nat) :=
    Int.natCast_dvd_natCast.mpr (Nat.pow_dvd_pow 2 narrow)
  have low : ((UInt32.ofInt value).toNat : Int) = value % (UInt32.size : Nat) := by
    have positive := Int.emod_nonneg value (by decide : ((UInt32.size : Nat) : Int) ≠ 0)
    rw [UInt32.ofInt, UInt32.toNat_ofNat']
    change ((Int.toNat (value % (UInt32.size : Nat)) % UInt32.size : Nat) : Int) = _
    rw [Int.natCast_emod, Int.toNat_of_nonneg positive, Int.emod_emod]
  rw [low, Int.emod_emod_of_dvd _ divides]

theorem signExtend_eq_iff {bits first second : Nat} :
    signExtend bits first = signExtend bits second ↔ first % 2 ^ bits = second % 2 ^ bits := by
  change (first : Int).bmod (2 ^ bits) = (second : Int).bmod (2 ^ bits) ↔ _
  rw [← Int.natCast_inj, Int.natCast_emod, Int.natCast_emod]
  constructor
  · intro same
    rw [← Int.bmod_emod, same, Int.bmod_emod]
  · intro same
    rw [← Int.emod_bmod, same, Int.emod_bmod]

theorem longAbsolute_eq_iff {first second : Nat} :
    longAbsolute mode first = longAbsolute mode second ↔
      first % 2 ^ mode.space.bits = second % 2 ^ mode.space.bits := by
  rw [← UInt32.toNat_inj, toNat_longAbsolute, toNat_longAbsolute]

theorem toNat_shortAbsolute_mod (value : Nat) :
    (shortAbsolute mode value).toNat % 2 ^ 16 = value % 2 ^ 16 := by
  have narrow : 2 ^ 16 ∣ 2 ^ mode.space.bits := by
    apply Nat.pow_dvd_pow
    cases mode.space <;> decide
  unfold shortAbsolute
  rw [toNat_and_addressMask, Nat.mod_mod_of_dvd _ narrow, ← Int.natCast_inj, Int.natCast_emod,
    toNat_ofInt_mod _ (by decide), Int.natCast_emod]
  exact Int.bmod_emod

theorem shortAbsolute_eq_iff {first second : Nat} :
    shortAbsolute mode first = shortAbsolute mode second ↔ first % 2 ^ 16 = second % 2 ^ 16 := by
  constructor
  · intro same
    rw [← toNat_shortAbsolute_mod mode first, same, toNat_shortAbsolute_mod]
  · intro same
    have wrapped : Width.word.wrap first = Width.word.wrap second :=
      (signExtend_eq_iff.mpr same : signExtend 16 first = signExtend 16 second)
    rw [shortAbsolute, shortAbsolute, wrapped]

theorem toNat_highPage_mod (low : Nat) : (highPage mode low).toNat % 2 ^ 8 = low % 2 ^ 8 := by
  have narrow : 2 ^ 8 ∣ 2 ^ mode.space.bits := by
    apply Nat.pow_dvd_pow
    cases mode.space <;> decide
  have small : low % UInt8.size % 2 ^ 32 = low % UInt8.size :=
    Nat.mod_eq_of_lt (Nat.lt_of_lt_of_le (Nat.mod_lt _ (by decide)) (by decide))
  unfold highPage
  rw [toNat_and_addressMask, Nat.mod_mod_of_dvd _ narrow, UInt32.toNat_or, Nat.or_mod_two_pow,
    UInt32.toNat_ofNat', small]
  change 0 ||| low % 2 ^ 8 % 2 ^ 8 = _
  rw [Nat.zero_or, Nat.mod_mod]

theorem highPage_eq_iff {first second : Nat} :
    highPage mode first = highPage mode second ↔ first % 2 ^ 8 = second % 2 ^ 8 := by
  constructor
  · intro same
    rw [← toNat_highPage_mod mode first, same, toNat_highPage_mod]
  · intro same
    rw [highPage, highPage, show first % UInt8.size = second % UInt8.size from same]

theorem toNat_branchTarget (next : Address) (displacement : Int) :
    ((branchTarget mode next displacement).toNat : Int) =
      (next.toNat + displacement) % (2 ^ mode.space.bits : Nat) := by
  have narrow : mode.space.bits ≤ 32 := by cases mode.space <;> decide
  have divides : 2 ^ mode.space.bits ∣ 2 ^ 32 := Nat.pow_dvd_pow 2 narrow
  rw [branchTarget, toNat_and_addressMask, UInt32.toNat_add, Nat.mod_mod_of_dvd _ divides,
    Int.natCast_emod, Int.natCast_add, Int.add_emod, toNat_ofInt_mod _ narrow, ← Int.add_emod]

end

theorem Register.byte_eq_iff {first second : Nat} :
    Register.byte first = Register.byte second ↔ first % 2 ^ 4 = second % 2 ^ 4 := by
  simp only [Register.byte, Register.general.injEq, Fin.ext_iff, Fin.val_ofNat]
  constructor
  · rintro ⟨part, number⟩
    split at part <;> split at part <;> simp_all <;> omega
  · intro same
    have number : first % 8 = second % 8 := by omega
    rw [show first % 16 = second % 16 from same]
    exact ⟨rfl, number⟩

theorem Register.word_eq_iff {first second : Nat} :
    Register.word first = Register.word second ↔ first % 2 ^ 4 = second % 2 ^ 4 := by
  simp only [Register.word, Register.general.injEq, Fin.ext_iff, Fin.val_ofNat]
  constructor
  · rintro ⟨part, number⟩
    split at part <;> split at part <;> simp_all <;> omega
  · intro same
    have number : first % 8 = second % 8 := by omega
    rw [show first % 16 = second % 16 from same]
    exact ⟨rfl, number⟩

theorem Register.long_eq_iff {first second : Nat} :
    Register.long first = Register.long second ↔ first % 2 ^ 3 = second % 2 ^ 3 := by
  simp [Register.long, Fin.ext_iff]

theorem Condition.ofField_eq_iff {first second : Nat} :
    Condition.ofField first = Condition.ofField second ↔ first % 2 ^ 4 = second % 2 ^ 4 := by
  have injective : ∀ a b : Fin 16, ofField a.val = ofField b.val → a = b := by decide +kernel
  have reduced (field : Nat) : ofField (field % 16) = ofField field := by
    simp only [ofField, Nat.mod_mod]
  constructor
  · intro same
    have small (field : Nat) : field % 16 < 16 := Nat.mod_lt field (by decide)
    rw [← reduced first, ← reduced second] at same
    exact Fin.val_eq_of_eq (injective ⟨first % 16, small first⟩ ⟨second % 16, small second⟩ same)
  · intro same
    rw [← reduced first, ← reduced second, show first % 16 = second % 16 from same]

/-- The fields of a slot with the number of their lowest bits that the operand
keeps. -/
def Encoding.Slot.kept (space : Space) : Slot → List (Char × Nat)
  | .control _ | .const _ | .popped | .pushed => []
  | .imm letter _ | .bit letter | .vector letter => [(letter, 32)]
  | .reg8 letter | .reg16 letter => [(letter, 4)]
  | .reg32 letter | .ind letter | .postInc letter | .preDec letter => [(letter, 3)]
  | .disp16 letter base => [(letter, 16), (base, 3)]
  | .dispLong letter base => [(letter, 24), (base, 3)]
  | .abs8 letter | .rel8 letter => [(letter, 8)]
  | .abs16 letter | .rel16 letter => [(letter, 16)]
  | .abs24 letter | .absLong letter => [(letter, space.bits)]
  | .listTo register count | .listFrom register count => [(register, 3), (count, 32)]

namespace Encoding.Slot
variable {mode : Mode} {next : Address} {first second : Char → Nat} {slot : Slot}

theorem operand_eq_iff (single : slot.list? = none) (small : ∀ letter, first letter < UInt32.size)
    (alsoSmall : ∀ letter, second letter < UInt32.size) :
    slot.operand mode next first = slot.operand mode next second ↔
      ∀ field ∈ slot.kept mode.space,
        first field.1 % 2 ^ field.2 = second field.1 % 2 ^ field.2 := by
  -- No field has more than 32 bits, so keeping 32 keeps it whole.
  have full (letter : Char) :
      first letter % 2 ^ 32 = second letter % 2 ^ 32 ↔ first letter = second letter := by
    change first letter % UInt32.size = second letter % UInt32.size ↔ _
    rw [Nat.mod_eq_of_lt (small letter), Nat.mod_eq_of_lt (alsoSmall letter)]
  cases slot with
  | control _ | const _ | popped | pushed => simp [kept, Slot.operand]
  | imm letter _ | bit letter | vector letter => simp [kept, Slot.operand, -Nat.reducePow, full]
  | reg8 letter => simp [kept, Slot.operand, -Nat.reducePow, Register.byte_eq_iff]
  | reg16 letter => simp [kept, Slot.operand, -Nat.reducePow, Register.word_eq_iff]
  | reg32 letter | ind letter | postInc letter | preDec letter =>
    simp [kept, Slot.operand, -Nat.reducePow, Register.long_eq_iff]
  | disp16 letter base | dispLong letter base =>
    simp [kept, Slot.operand, -Nat.reducePow, Register.long_eq_iff, signExtend_eq_iff, and_comm]
  | abs8 letter => simp [kept, Slot.operand, -Nat.reducePow, highPage_eq_iff]
  | abs16 letter => simp [kept, Slot.operand, -Nat.reducePow, shortAbsolute_eq_iff]
  | abs24 letter | absLong letter => simp [kept, Slot.operand, longAbsolute_eq_iff]
  | rel8 letter | rel16 letter =>
    simp only [kept, Slot.operand, List.mem_singleton, forall_eq, Except.ok.injEq,
      Operand.relative.injEq, and_true]
    constructor
    · exact fun same => signExtend_eq_iff.mp same.2
    · intro same
      have displacement := signExtend_eq_iff.mpr same
      exact ⟨congrArg (branchTarget mode next) displacement, displacement⟩
  | listTo _ _ | listFrom _ _ => cases single

theorem kept_le (slot : Slot) (space : Space) : ∀ field ∈ slot.kept space, field.2 ≤ 32 := by
  have address : space.bits ≤ 32 := by cases space <;> decide
  cases slot <;> simp [kept, address]

/-- Fields with equal kept bits give equal operands, also where the operand is a
list of registers, whose number has no more bits than are kept. -/
theorem operand_congr (small : ∀ letter, first letter < UInt32.size)
    (alsoSmall : ∀ letter, second letter < UInt32.size)
    (register : ∀ fields ∈ slot.list?, first fields.1 < 2 ^ 3 ∧ second fields.1 < 2 ^ 3)
    (same : ∀ field ∈ slot.kept mode.space,
      first field.1 % 2 ^ field.2 = second field.1 % 2 ^ field.2) :
    slot.operand mode next first = slot.operand mode next second := by
  cases slot with
  | listTo letter count | listFrom letter count =>
    have bounds := register (letter, count) rfl
    have numbers := same (letter, 3) (by simp [kept])
    have sizes := same (count, 32) (by simp [kept])
    rw [Nat.mod_eq_of_lt bounds.1, Nat.mod_eq_of_lt bounds.2] at numbers
    change first count % UInt32.size = second count % UInt32.size at sizes
    rw [Nat.mod_eq_of_lt (small count), Nat.mod_eq_of_lt (alsoSmall count)] at sizes
    simp only [Slot.operand, numbers, sizes]
  | _ => exact (operand_eq_iff rfl small alsoSmall).mpr same

theorem kept_eq_of_operand {operand : Operand} (small : ∀ letter, first letter < UInt32.size)
    (alsoSmall : ∀ letter, second letter < UInt32.size)
    (left : slot.operand mode next first = .ok operand)
    (right : slot.operand mode next second = .ok operand) :
    ∀ field ∈ slot.kept mode.space, first field.1 % 2 ^ field.2 = second field.1 % 2 ^ field.2 := by
  cases lists : slot.list? with
  | none => exact (operand_eq_iff lists small alsoSmall).mp (left.trans right.symm)
  | some fields =>
    cases slot with
    | listTo last count =>
      simp only [Slot.operand] at left right
      split at left
      · cases left
      · next enough =>
        split at right
        · cases right
        · next alsoEnough =>
          have same := Except.ok.inj (left.trans right.symm)
          simp only [Operand.registerList.injEq, Register.long_eq_iff] at same
          simp only [kept, List.mem_cons, List.not_mem_nil, or_false, forall_eq_or_imp, forall_eq]
          omega
    | listFrom register count =>
      simp only [Slot.operand] at left right
      split at left
      · cases left
      · split at right
        · cases right
        · have same := Except.ok.inj (left.trans right.symm)
          simp only [Operand.registerList.injEq, Register.long_eq_iff] at same
          simp only [kept, List.mem_cons, List.not_mem_nil, or_false, forall_eq_or_imp, forall_eq]
          omega
    | _ => cases lists

end Encoding.Slot

end H8
