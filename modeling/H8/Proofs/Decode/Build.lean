import H8.Decode
import Mathlib.Data.List.Forall2

/-! Building an instruction: operand by operand, or failing with one of them. -/

set_option autoImplicit false

namespace H8

open Encoding

section
variable {Item Value Error : Type} {make : Item → Except Error Value}

theorem mapM_eq_ok_iff {items : List Item} {values : List Value} :
    items.mapM make = .ok values ↔ List.Forall₂ (fun item value => make item = .ok value) items values := by
  induction items generalizing values with
  | nil =>
    rw [List.forall₂_nil_left_iff]
    simp [pure, Except.pure, eq_comm]
  | cons item items ih =>
    rw [List.mapM_cons, List.forall₂_cons_left_iff]
    cases made : make item with
    | error error => simp [bind, Except.bind]
    | ok value =>
      cases rest : items.mapM make with
      | error error =>
        have none (others : List Value) :
            ¬ List.Forall₂ (fun item value => make item = .ok value) items others := by
          rw [← ih, rest]
          simp
        simp [bind, Except.bind, none]
      | ok others =>
        simp only [bind, Except.bind, pure, Except.pure, Except.ok.injEq]
        constructor
        · rintro rfl
          exact ⟨value, others, rfl, ih.mp rest, rfl⟩
        · rintro ⟨first, tail, rfl, all, rfl⟩
          rw [Except.ok.inj ((ih.mpr all).symm.trans rest)]

theorem exists_of_forall₂ {related : Item → Value → Prop} {items : List Item} {values : List Value}
    (all : List.Forall₂ related items values) {item : Item} (member : item ∈ items) :
    ∃ value, related item value := by
  induction all with
  | nil => cases member
  | cons holds _ ih =>
    rcases List.mem_cons.mp member with rfl | later
    · exact ⟨_, holds⟩
    · exact ih later

theorem mapM_congr {other : Item → Except Error Value} {items : List Item}
    (same : ∀ item ∈ items, make item = other item) : items.mapM make = items.mapM other := by
  induction items with
  | nil => rfl
  | cons item items ih =>
    rw [List.mapM_cons, List.mapM_cons, same item (by simp),
      ih fun item member => same item (by simp [member])]

theorem mapM_eq_map {other : Item → Except Error Value} {change : Value → Value}
    {items : List Item} (same : ∀ item ∈ items, make item = (other item).map change) :
    items.mapM make = (items.mapM other).map (List.map change) := by
  induction items with
  | nil => rfl
  | cons item items ih =>
    rw [List.mapM_cons, List.mapM_cons, same item (by simp),
      ih fun item member => same item (by simp [member])]
    cases other item with
    | error error => rfl
    | ok value => cases items.mapM other <;> rfl

theorem exists_of_mapM_eq_error {items : List Item} {error : Error}
    (failed : items.mapM make = .error error) : ∃ item ∈ items, make item = .error error := by
  induction items with
  | nil => simp [pure, Except.pure] at failed
  | cons item items ih =>
    rw [List.mapM_cons] at failed
    cases made : make item with
    | error other =>
      simp only [made, bind, Except.bind, Except.error.injEq] at failed
      exact ⟨item, by simp, failed ▸ made⟩
    | ok value =>
      cases rest : items.mapM make with
      | error other =>
        simp only [made, rest, bind, Except.bind, Except.error.injEq] at failed
        obtain ⟨found, member, fails⟩ := ih (failed ▸ rest)
        exact ⟨found, by simp [member], fails⟩
      | ok others => simp [made, rest, bind, Except.bind, pure, Except.pure] at failed

end

/-- The fields of a register list: the register that the list is given by,
and one less than its size. -/
def Encoding.Slot.list? : Slot → Option (Char × Char)
  | .listTo register count | .listFrom register count => some (register, count)
  | _ => none

theorem Encoding.Slot.operand_eq_error {mode : Mode} {next : Address} {field : Char → Nat} {slot : Slot}
    {error : DecodeError} (failed : slot.operand mode next field = .error error) :
    error = .illegalOperand ∨
      (∃ last count, slot = .listTo last count ∧ field last < field count) ∨
      ∃ first count, slot = .listFrom first count ∧ 8 ≤ field first + field count := by
  cases slot with
  | control register =>
    simp only [Slot.operand] at failed
    split at failed
    · exact .inl (Except.error.inj failed).symm
    · cases failed
  | listTo last count =>
    simp only [Slot.operand] at failed
    split at failed
    · next short => exact .inr (.inl ⟨last, count, rfl, by omega⟩)
    · cases failed
  | listFrom first count =>
    simp only [Slot.operand] at failed
    split at failed
    · next long => exact .inr (.inr ⟨first, count, rfl, by omega⟩)
    · cases failed
  | _ => cases failed

namespace Encoding.Opcode
variable {opcode : Opcode} {bytes : List UInt8} {address : Address} {mode : Mode}

def following (opcode : Opcode) (address : Address) : Address :=
  address + UInt32.ofNat opcode.pattern.length

def mnemonicOf (opcode : Opcode) (bytes : List UInt8) : Mnemonic :=
  match opcode.condition with
  | some letter => .branch (.ofField (opcode.pattern.field bytes letter))
  | none => opcode.mnemonic

def assemble (opcode : Opcode) (bytes : List UInt8) (address : Address) (operands : List Operand) :
    Instruction where
  address := address
  length := opcode.pattern.length
  mnemonic := opcode.mnemonicOf bytes
  width := opcode.width
  operands := operands
  longForm := opcode.slots.any Slot.isLong
  h8sOnly := opcode.core = .h8s

theorem build_eq : opcode.build bytes address mode =
    (opcode.slots.mapM (Slot.operand mode (opcode.following address) (opcode.pattern.field bytes))).map
      (opcode.assemble bytes address) := by
  unfold build following
  dsimp only
  cases opcode.slots.mapM (Slot.operand mode (address + UInt32.ofNat opcode.pattern.length)
    (opcode.pattern.field bytes)) <;> rfl

theorem build_eq_ok_iff {instruction : Instruction} :
    opcode.build bytes address mode = .ok instruction ↔
      ∃ operands, List.Forall₂ (fun slot operand => slot.operand mode (opcode.following address)
          (opcode.pattern.field bytes) = .ok operand) opcode.slots operands ∧
        instruction = opcode.assemble bytes address operands := by
  rw [build_eq]
  simp only [← mapM_eq_ok_iff]
  cases opcode.slots.mapM (Slot.operand mode (opcode.following address)
    (opcode.pattern.field bytes)) <;> simp [Except.map, eq_comm]

theorem exists_of_build_eq_error {error : DecodeError}
    (failed : opcode.build bytes address mode = .error error) :
    ∃ slot ∈ opcode.slots, slot.operand mode (opcode.following address)
      (opcode.pattern.field bytes) = .error error := by
  rw [build_eq] at failed
  cases made : opcode.slots.mapM (Slot.operand mode (opcode.following address)
      (opcode.pattern.field bytes)) with
  | error other =>
    simp only [made, Except.map, Except.error.injEq] at failed
    exact exists_of_mapM_eq_error (failed ▸ made)
  | ok operands => simp [made, Except.map] at failed

theorem length_of_build {instruction : Instruction}
    (built : opcode.build bytes address mode = .ok instruction) :
    instruction.length = opcode.pattern.length := by
  obtain ⟨operands, -, rfl⟩ := build_eq_ok_iff.mp built
  rfl

theorem mnemonic_of_build {instruction : Instruction}
    (built : opcode.build bytes address mode = .ok instruction)
    (plain : ∀ condition, instruction.mnemonic ≠ .branch condition) :
    opcode.mnemonic = instruction.mnemonic := by
  obtain ⟨operands, -, rfl⟩ := build_eq_ok_iff.mp built
  change opcode.mnemonic = opcode.mnemonicOf bytes
  cases condition : opcode.condition with
  | none => simp only [mnemonicOf, condition]
  | some letter =>
    have branches : opcode.mnemonicOf bytes = .branch (.ofField (opcode.pattern.field bytes letter)) := by
      simp only [mnemonicOf, condition]
    exact absurd branches (plain _)

theorem build_congr {first second : List UInt8}
    (same : ∀ letter, opcode.pattern.field first letter = opcode.pattern.field second letter) :
    opcode.build first address mode = opcode.build second address mode := by
  unfold build
  rw [funext same]

end Encoding.Opcode

end H8
