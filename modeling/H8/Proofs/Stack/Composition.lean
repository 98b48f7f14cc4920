import H8.Database
import H8.Proofs.Stack.Walk

/-! Walks compose.

A walk finds an offset exactly if straight code that fits in its budget leads to
the target and meets it only at the end. So a larger budget changes no answer,
and two walks that follow one another make one, unless the first of them passes
the target of the second.
-/

set_option autoImplicit false

namespace H8

structure Arrives (view : View) (mode : Mode) (start : Address) (path : List Instruction)
    (stop : Address) : Prop where
  falls : Falls view mode start path stop
  fresh : ∀ instruction ∈ path, instruction.address ≠ stop

def passed (view : View) (mode : Mode) (stop : Address) : (budget : Nat) → Address → List Address
  | 0, _ => []
  | budget + 1, address =>
    if address = stop then []
    else match view.decodeAt address mode with
      | .error _ => [address]
      | .ok instruction =>
        if (instruction.effects view mode).flow.fallsThrough then
          address :: passed view mode stop budget instruction.next
        else [address]

section
variable {view : View} {mode : Mode} {start middle stop : Address} {path later : List Instruction}
  {budget : Nat}

theorem Arrives.append (first : Arrives view mode start path middle)
    (second : Arrives view mode middle later stop)
    (avoids : ∀ instruction ∈ path, instruction.address ≠ stop) :
    Arrives view mode start (path ++ later) stop where
  falls := first.falls.append second.falls
  fresh := by
    intro instruction member
    rcases List.mem_append.mp member with early | late
    · exact avoids instruction early
    · exact second.fresh instruction late

theorem Arrives.passed_eq (arrives : Arrives view mode start path stop)
    (enough : path.length ≤ budget) :
    passed view mode stop budget start = path.map Instruction.address := by
  obtain ⟨falls, fresh⟩ := arrives
  induction falls generalizing budget with
  | nil address => cases budget <;> simp [passed]
  | @cons address stop instruction rest decoded flows _ ih =>
    obtain ⟨budget, rfl⟩ := Nat.exists_eq_add_of_le' (Nat.one_le_of_lt enough)
    have placed := View.address_of_decodeAt decoded
    have onward : address ≠ stop := placed ▸ fresh instruction (by simp)
    rw [passed, if_neg onward, decoded]
    simp only [flows, if_true, List.map_cons, placed]
    rw [ih (Nat.le_of_succ_le_succ enough) fun other member => fresh other (by simp [member])]

theorem stackWalk_eq_some_iff {offset result : Int} :
    stackWalk view mode stop budget start offset = some result ↔
      ∃ path, Arrives view mode start path stop ∧ path.length ≤ budget ∧
        path.foldl Instruction.moveStack offset = result := by
  constructor
  · intro found
    induction budget generalizing start offset with
    | zero =>
      simp only [stackWalk, Option.ite_none_right_eq_some, Option.some.injEq] at found
      obtain ⟨rfl, rfl⟩ := found
      exact ⟨[], ⟨.nil start, by simp⟩, Nat.le_refl 0, rfl⟩
    | succ budget ih =>
      rw [stackWalk] at found
      split at found
      · next here =>
        subst here
        exact ⟨[], ⟨.nil start, by simp⟩, Nat.zero_le _, Option.some.inj found⟩
      · next onward =>
        cases decoded : view.decodeAt start mode with
        | error error => simp [decoded] at found
        | ok instruction =>
          simp only [decoded, Option.ite_none_right_eq_some] at found
          obtain ⟨flows, found⟩ := found
          obtain ⟨rest, arrives, short, total⟩ := ih found
          refine ⟨instruction :: rest, ⟨.cons decoded flows arrives.falls, ?_⟩,
            Nat.succ_le_succ short, total⟩
          intro other member
          rcases List.mem_cons.mp member with rfl | inside
          · rwa [View.address_of_decodeAt decoded]
          · exact arrives.fresh other inside
  · rintro ⟨path, arrives, short, rfl⟩
    exact arrives.falls.stackWalk_eq arrives.fresh short offset

end

/-- Two walks that follow one another make one walk with the budgets of both and
the sum of their offsets, unless the first passes the target of the second. More
budget never changes an offset that was found. -/
theorem stackOffsetAt?_composes (view : View) (mode : Mode) (entry target : Address) :
    (∀ (middle : Address) (first second budget : Nat) (before after : Int),
      stackOffsetAt? view mode first entry middle = some before →
      stackOffsetAt? view mode second middle target = some after →
      target ∉ passed view mode middle first entry → first + second ≤ budget →
      stackOffsetAt? view mode budget entry target = some (wrap32 (before + after))) ∧
    ∀ (budget larger : Nat) (offset : Int),
      stackOffsetAt? view mode budget entry target = some offset → budget ≤ larger →
      stackOffsetAt? view mode larger entry target = some offset := by
  unfold stackOffsetAt?
  constructor
  · intro middle first second budget before after early late avoids enough
    obtain ⟨path, arrives, short, total⟩ := stackWalk_eq_some_iff.mp early
    obtain ⟨later, onward, brief, sum⟩ := stackWalk_eq_some_iff.mp late
    rw [arrives.passed_eq short] at avoids
    have whole : Arrives view mode entry (path ++ later) target :=
      arrives.append onward fun instruction member same =>
        avoids (List.mem_map.mpr ⟨instruction, member, same⟩)
    apply stackWalk_eq_some_iff.mpr
    refine ⟨path ++ later, whole, ?_, ?_⟩
    · rw [List.length_append]
      omega
    · calc (path ++ later).foldl Instruction.moveStack 0
          = later.foldl Instruction.moveStack before := by rw [List.foldl_append, total]
        _ = later.foldl Instruction.moveStack (wrap32 before) := by rw [← total, wrap32_moveStack]
        _ = wrap32 (before + after) := by rw [foldl_moveStack_wrap32, sum]
  · intro budget larger offset found more
    obtain ⟨path, arrives, short, total⟩ := stackWalk_eq_some_iff.mp found
    exact stackWalk_eq_some_iff.mpr ⟨path, arrives, short.trans more, total⟩

/-- A push, a branch that may fall through and a move by half of the range, with
budgets that just suffice. The sum of the offsets wraps around. -/
theorem stackOffsetAt?_composes_wrapping :
    let view := (Database.ofMemory (.ofImage #[0x01, 0x00, 0x6D, 0xF6, 0x46, 0x02, 0x7A, 0x37,
      0x80, 0x00, 0x00, 0x00, 0x54, 0x70] 0x100)).view
    let mode : Mode := ⟨.h8300h, .advanced⟩
    stackOffsetAt? view mode 1 0x100 0x104 = some (-4) ∧
      stackOffsetAt? view mode 2 0x104 0x10C = some (-2 ^ 31) ∧
      0x10C ∉ passed view mode 0x104 1 0x100 ∧
      stackOffsetAt? view mode 2 0x100 0x10C = none ∧
      ∀ budget ≥ 3, stackOffsetAt? view mode budget 0x100 0x10C = some (2 ^ 31 - 4) := by
  intro view mode
  have walks : stackOffsetAt? view mode 1 0x100 0x104 = some (-4) ∧
      stackOffsetAt? view mode 2 0x104 0x10C = some (-2 ^ 31) ∧
      0x10C ∉ passed view mode 0x104 1 0x100 ∧
      stackOffsetAt? view mode 2 0x100 0x10C = none := by decide +kernel
  obtain ⟨early, late, avoids, short⟩ := walks
  have composes := stackOffsetAt?_composes view mode 0x100 0x10C
  have least : stackOffsetAt? view mode 3 0x100 0x10C = some (2 ^ 31 - 4) :=
    composes.1 0x104 1 2 3 (-4) (-2 ^ 31) early late avoids (Nat.le_refl 3)
  refine ⟨early, late, avoids, short, ?_⟩
  intro budget enough
  exact composes.2 3 budget (2 ^ 31 - 4) least enough

end H8
