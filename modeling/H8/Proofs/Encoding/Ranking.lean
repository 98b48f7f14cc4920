import H8.Encoding.Index

/-! The index of opcodes: what a first byte selects, and in which order. -/

set_option autoImplicit false

namespace H8.Encoding

theorem perm_rankInsert (opcode : Opcode) (ranked : List Opcode) :
    (rankInsert opcode ranked).Perm (opcode :: ranked) := by
  induction ranked with
  | nil => exact .refl _
  | cons first rest ih =>
    simp only [rankInsert]
    split
    · exact (ih.cons first).trans (.swap opcode first rest)
    · exact .refl _

theorem perm_rank (table : List Opcode) : (rank table).Perm table := by
  induction table with
  | nil => exact .refl _
  | cons opcode table ih => exact (perm_rankInsert opcode _).trans (ih.cons opcode)

theorem fixedBits_le_of_precedes {first second : Opcode} (precedes : first.precedes second = true) :
    second.pattern.fixedBits ≤ first.pattern.fixedBits := by
  simp only [Opcode.precedes, Bool.or_eq_true, Bool.and_eq_true, decide_eq_true_eq] at precedes
  omega

theorem fixedBits_le_of_not_precedes {first second : Opcode}
    (follows : first.precedes second = false) :
    first.pattern.fixedBits ≤ second.pattern.fixedBits := by
  simp only [Opcode.precedes, Bool.or_eq_false_iff, decide_eq_false_iff_not] at follows
  omega

def Ranked (table : List Opcode) : Prop :=
  table.Pairwise fun first second => second.pattern.fixedBits ≤ first.pattern.fixedBits

theorem ranked_rankInsert (opcode : Opcode) {table : List Opcode} (ranked : Ranked table) :
    Ranked (rankInsert opcode table) := by
  induction table with
  | nil => exact List.pairwise_singleton _ _
  | cons first rest ih =>
    obtain ⟨head, tail⟩ := List.pairwise_cons.mp ranked
    simp only [rankInsert]
    split
    · next precedes =>
      refine List.pairwise_cons.mpr ⟨fun other member => ?_, ih tail⟩
      rcases List.mem_cons.mp ((perm_rankInsert opcode rest).mem_iff.mp member) with same | member
      · exact same ▸ fixedBits_le_of_precedes precedes
      · exact head other member
    · next follows =>
      have least := fixedBits_le_of_not_precedes (Bool.eq_false_iff.mpr follows)
      refine List.pairwise_cons.mpr ⟨fun other member => ?_, ranked⟩
      rcases List.mem_cons.mp member with same | member
      · exact same ▸ least
      · exact Nat.le_trans (head other member) least

theorem ranked_rank (table : List Opcode) : Ranked (rank table) := by
  induction table with
  | nil => exact .nil
  | cons opcode table ih => exact ranked_rankInsert opcode ih

/-- The index holds what would be computed from the table. -/
theorem candidates_eq (first : UInt8) : candidates first = admitted first := by
  unfold candidates index
  rw [Array.getElem?_ofFn, dif_pos first.toNat_lt_size]
  simp only [Option.getD_some, UInt8.ofNat_toNat]

end H8.Encoding
