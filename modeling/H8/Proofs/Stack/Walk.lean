import H8.Proofs.Switch
import H8.Stack.Walk

/-! Walks along straight code.

A walk reaches an address through the instructions that fall through to it, and
adds up how they move the stack pointer. It stops at the first place where it
meets the address, so the address must not occur on the way. Instructions are
short, so on a walk within the budget no address occurs twice.
-/

set_option autoImplicit false

namespace H8

open Encoding

inductive Falls (view : View) (mode : Mode) : Address → List Instruction → Address → Prop where
  | nil (address : Address) : Falls view mode address [] address
  | cons {address stop : Address} {instruction : Instruction} {rest : List Instruction}
      (decoded : view.decodeAt address mode = .ok instruction)
      (falls : (instruction.effects view mode).flow.fallsThrough = true)
      (later : Falls view mode instruction.next rest stop) :
      Falls view mode address (instruction :: rest) stop

def Instruction.moveStack (offset : Int) (instruction : Instruction) : Int :=
  wrap32 (offset + instruction.stackDelta?.getD 0)

theorem foldl_moveStack_wrap32 (instructions : List Instruction) (offset : Int) :
    instructions.foldl Instruction.moveStack (wrap32 offset) =
      wrap32 (offset + instructions.foldl Instruction.moveStack 0) := by
  induction instructions generalizing offset with
  | nil => simp
  | cons instruction rest ih =>
    simp only [List.foldl_cons, Instruction.moveStack, ih]
    simp [wrap32, Width.wrap, Int.add_assoc]

theorem wrap32_moveStack (instructions : List Instruction) :
    wrap32 (instructions.foldl Instruction.moveStack 0) =
      instructions.foldl Instruction.moveStack 0 := by
  simpa [wrap32, Width.wrap] using (foldl_moveStack_wrap32 instructions 0).symm

def span (instructions : List Instruction) : Nat := (instructions.map Instruction.length).sum

@[simp] theorem span_nil : span [] = 0 := rfl

@[simp] theorem span_cons (instruction : Instruction) (rest : List Instruction) :
    span (instruction :: rest) = instruction.length + span rest := rfl

namespace View
variable {view : View} {mode : Mode} {address : Address} {instruction : Instruction}

theorem length_of_decodeAt (decoded : view.decodeAt address mode = .ok instruction) :
    0 < instruction.length ∧ instruction.length ≤ maxInstructionLength := by
  have read := decode_of_decodeAt decoded
  obtain ⟨opcode, member, -, built⟩ := exists_opcode read
  refine ⟨length_pos_of_decode read, ?_⟩
  rw [Opcode.length_of_build built]
  exact (separated_opcodes.whole opcode member).2.2

end View

namespace Falls
variable {view : View} {mode : Mode} {start middle stop : Address}
  {instructions later : List Instruction}

theorem append (first : Falls view mode start instructions middle)
    (second : Falls view mode middle later stop) :
    Falls view mode start (instructions ++ later) stop := by
  induction first with
  | nil => exact second
  | cons decoded falls _ ih => exact .cons decoded falls (ih second)

theorem stop_eq (falls : Falls view mode start instructions stop) :
    stop = start + UInt32.ofNat (span instructions) := by
  induction falls with
  | nil address => simp
  | cons decoded _ _ ih =>
    rw [ih, Instruction.next, View.address_of_decodeAt decoded, span_cons, UInt32.ofNat_add,
      UInt32.add_assoc]

theorem span_le (falls : Falls view mode start instructions stop) :
    span instructions ≤ maxInstructionLength * instructions.length := by
  induction falls with
  | nil => exact Nat.zero_le _
  | cons decoded _ _ ih =>
    have short := (View.length_of_decodeAt decoded).2
    rw [span_cons, List.length_cons, Nat.mul_succ, Nat.add_comm]
    exact Nat.add_le_add ih short

/-- Straight code that does not reach around the address space ends at an
address that it has not passed. -/
theorem ne_stop (falls : Falls view mode start instructions stop)
    (small : span instructions < UInt32.size) :
    ∀ instruction ∈ instructions, instruction.address ≠ stop := by
  induction falls with
  | nil => simp
  | @cons address stop instruction rest decoded flows following ih =>
    have ended := (Falls.cons decoded flows following).stop_eq
    have positive := (View.length_of_decodeAt decoded).1
    rw [span_cons] at small ended
    intro other member
    rcases List.mem_cons.mp member with rfl | inside
    · rw [View.address_of_decodeAt decoded]
      intro same
      have sum := congrArg UInt32.toNat (same.trans ended)
      have bound := address.toNat_lt_size
      have size : UInt32.size = 2 ^ 32 := rfl
      rw [UInt32.toNat_add, UInt32.toNat_ofNat', Nat.mod_eq_of_lt small] at sum
      omega
    · exact ih (by omega) other inside

theorem stackWalk_eq (falls : Falls view mode start instructions stop)
    (fresh : ∀ instruction ∈ instructions, instruction.address ≠ stop) {budget : Nat}
    (enough : instructions.length ≤ budget) (offset : Int) :
    stackWalk view mode stop budget start offset =
      some (instructions.foldl Instruction.moveStack offset) := by
  induction falls generalizing budget offset with
  | nil address => cases budget <;> simp [stackWalk]
  | @cons address stop instruction rest decoded flows _ ih =>
    obtain ⟨budget, rfl⟩ : ∃ less, budget = less + 1 :=
      ⟨budget - 1, by simp only [List.length_cons] at enough; omega⟩
    have passed : address ≠ stop := by
      rw [← View.address_of_decodeAt decoded]
      exact fresh instruction (by simp)
    rw [stackWalk, if_neg passed, decoded]
    simp only [flows, if_true, List.foldl_cons]
    exact ih (fun other member => fresh other (by simp [member]))
      (Nat.le_of_succ_le_succ enough) _

theorem stackOffsetAt?_eq (falls : Falls view mode start instructions stop)
    (short : instructions.length ≤ defaultWalkBudget) :
    stackOffsetAt? view mode defaultWalkBudget start stop =
      some (instructions.foldl Instruction.moveStack 0) := by
  have small : span instructions < UInt32.size := by
    have bound := falls.span_le
    have most : maxInstructionLength = 10 := rfl
    have budget : defaultWalkBudget = 256 := rfl
    have size : UInt32.size = 4294967296 := rfl
    rw [most] at bound
    omega
  exact falls.stackWalk_eq (falls.ne_stop small) short 0

end Falls

end H8
