import H8.Scan
import H8.Proofs.CrossReferences

/-! What the parts of a database keep.

Marked instructions, recorded references and memory are each changed by one
operation only. An instruction is refused only where it shares an address with
a marked one.
-/

set_option autoImplicit false

namespace H8

theorem Address.toNat_saturatingAdd_le (address : Address) (distance : Nat) :
    (saturatingAdd address distance).toNat ≤ address.toNat + distance := by
  unfold saturatingAdd
  split
  · rw [UInt32.toNat_add, UInt32.toNat_ofNat']
    exact Nat.le_trans (Nat.mod_le _ _) (Nat.add_le_add_left (Nat.mod_le _ _) _)
  · next beyond =>
    have size : UInt32.size = 4294967296 := rfl
    change 4294967295 ≤ _
    omega

namespace Heads
variable {heads : Heads} {address : Address} {length : Nat}

def Overlap (first second : Address × Nat) : Prop :=
  first.1.toNat < second.1.toNat + second.2 ∧ second.1.toNat < first.1.toNat + first.2

instance (first second : Address × Nat) : Decidable (Overlap first second) :=
  inferInstanceAs (Decidable (_ ∧ _))

theorem overlap_of_overlaps (positive : ∀ head ∈ heads.entries, 0 < head.2) (long : 0 < length)
    (overlaps : heads.overlaps address length = true) :
    ∃ head ∈ heads.entries, Overlap (address, length) head := by
  rcases Bool.or_eq_true_iff.mp overlaps with before | meets
  · -- The nearest head below reaches past the address.
    obtain ⟨head, found, beyond⟩ := (Option.any_eq_true _ _).mp before
    obtain ⟨member, below⟩ := AddressMap.below?_eq_some found
    have stop := Address.toNat_saturatingAdd_le head.1 head.2
    have reaches := UInt32.lt_iff_toNat_lt.mp (of_decide_eq_true beyond)
    have starts := UInt32.lt_iff_toNat_lt.mp below
    exact ⟨head, member, Nat.lt_of_lt_of_le reaches stop, by simp only; omega⟩
  · -- A head starts inside the new instruction.
    obtain ⟨head, member, inside⟩ := List.any_eq_true.mp meets
    rw [Bool.and_eq_true, decide_eq_true_eq, decide_eq_true_eq] at inside
    have stop := Address.toNat_saturatingAdd_le address length
    have starts := UInt32.le_iff_toNat_le.mp inside.1
    have reaches := UInt32.lt_iff_toNat_lt.mp inside.2
    have some := positive head member
    exact ⟨head, member, by simp only; omega, by simp only; omega⟩

theorem mark?_of_not_contains (fresh : heads.contains address = false) :
    heads.mark? address length =
      if heads.overlaps address length then none else some (heads.insert address length) := by
  unfold mark?
  rw [Option.not_isSome_iff_eq_none.mp (Bool.eq_false_iff.mp fresh)]

end Heads

theorem foldl_keeps {State Item Part : Type} {step : State → Item → State} (part : State → Part)
    (keeps : ∀ state item, part (step state item) = part state) (items : List Item)
    (state : State) : part (items.foldl step state) = part state := by
  induction items generalizing state with
  | nil => rfl
  | cons item items ih => rw [List.foldl_cons, ih, keeps]

namespace Database

def core (database : Database) : Memory × Heads × CrossReferences :=
  (database.memory, database.heads, database.references)

theorem markHead?_eq_some {database marked : Database} {address : Address} {length : Nat}
    (unknown : database.heads.contains address = false)
    (accepted : database.markHead? address length = some marked) :
    marked = { database with heads := database.heads.insert address length } := by
  unfold markHead? at accepted
  rw [Heads.mark?_of_not_contains unknown] at accepted
  split at accepted
  · cases accepted
  · exact (Option.some.inj accepted).symm

theorem overlaps_of_markHead? {database : Database} {address : Address} {length : Nat}
    (unknown : database.heads.contains address = false)
    (refused : database.markHead? address length = none) :
    database.heads.overlaps address length = true := by
  unfold markHead? at refused
  rw [Heads.mark?_of_not_contains unknown] at refused
  split at refused
  · assumption
  · cases refused

theorem addReference_eq (database : Database) (reference : Reference) :
    (database.addReference reference).core =
      (database.memory, database.heads, database.references.insert reference) := by
  unfold addReference
  split <;> rfl

theorem core_foldl_addReference (references : List Reference) (database : Database) :
    (references.foldl addReference database).core =
      (database.memory, database.heads, references.foldl CrossReferences.insert database.references) := by
  induction references generalizing database with
  | nil => rfl
  | cons reference references ih =>
    have step := addReference_eq database reference
    simp only [core, Prod.mk.injEq] at step
    rw [List.foldl_cons, ih, step.1, step.2.1, step.2.2]
    rfl

theorem core_describeFunction (mode : Mode) (database : Database) (entry : Address) :
    (database.describeFunction mode entry).core = database.core := by
  unfold describeFunction
  dsimp only
  split <;> rfl

theorem core_labelTarget (database : Database) (target : Address × ReferenceKind) :
    (database.labelTarget target).core = database.core := by
  unfold labelTarget
  split <;> rfl

/-- Naming and framing come after tracing and leave what was traced. -/
theorem core_scan (database : Database) (entries : List Address) (mode : Mode) :
    (database.scan entries mode).1.core = (Trace.run mode (.start database entries)).database.core := by
  unfold scan Trace.conclude
  dsimp only
  rw [foldl_keeps core core_labelTarget, foldl_keeps core (core_describeFunction mode)]

theorem core_insertFunction (database : Database) (entry : Address) :
    (database.insertFunction entry).core = database.core := rfl

theorem core_start (database : Database) (entries : List Address) :
    (Trace.start database entries).database.core = database.core :=
  foldl_keeps core core_insertFunction _ database

end Database

end H8
