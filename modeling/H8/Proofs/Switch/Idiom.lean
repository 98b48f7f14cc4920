import H8.Proofs.Switch

/-! The shape of the code by which a jump table is recognized.

Read backwards from a computed jump: the load of an element, steps that scale
the index, the branch for all other indices, and the comparison of the index
with a bound. Recognition accepts this shape and no other. It takes scaling
steps for as long as it meets any, which loses nothing: a branch is no such
step.
-/

set_option autoImplicit false

namespace H8

namespace Instruction

/-- `jmp @ERn`, by the number of the register. -/
def JumpsThrough (jump : Instruction) (pointer : Fin 8) : Prop :=
  jump.mnemonic = .jmp ∧ ∃ base : Register,
    jump.operands.head? = some (.indirect base) ∧ base.number = some pointer

/-- `mov @(d,ERm),Rn` of a word or a long. -/
def LoadsAt (load : Instruction) (index pointer : Fin 8) (displacement : Int) (width : Width) : Prop :=
  load.mnemonic = .mov ∧ load.width = some width ∧ (width = .word ∨ width = .long) ∧
    ∃ (base destination : Register) (field : FieldWidth),
      load.operands = [.displaced base displacement field, .register destination] ∧
        base.number = some index ∧ destination.number = some pointer

def BranchesTo (branch : Instruction) (condition : Condition) (target : Address) : Prop :=
  branch.mnemonic = .branch condition ∧ ∃ (displacement : Int) (field : FieldWidth),
    branch.operands.head? = some (.relative target displacement field)

/-- `cmp #N,Rm`, by the number of the register. -/
def Compares (comparison : Instruction) (index : Fin 8) (bound : Nat) : Prop :=
  comparison.mnemonic = .cmp ∧ ∃ (width : Width) (register : Register),
    comparison.operands = [.immediate bound width, .register register] ∧
      register.number = some index

end Instruction

namespace Switch

/-- Known instructions, nearest first, that lead up to an address. Each ends
where the one after it begins. -/
inductive LeadsUp (view : View) (mode : Mode) : List Instruction → Address → Prop where
  | nil (address : Address) : LeadsUp view mode [] address
  | cons {address : Address} {instruction : Instruction} {earlier : List Instruction}
      (known : view.previous? address = some instruction.address)
      (decoded : view.decodeAt instruction.address mode = .ok instruction)
      (ends : instruction.next = address)
      (before : LeadsUp view mode earlier instruction.address) :
      LeadsUp view mode (instruction :: earlier) address

/-- The instruction multiplies the index by a factor. An addition doubles it only
if both operands are the same part of the register. -/
inductive Scales (index : Fin 8) (instruction : Instruction) : Nat → Prop where
  | extend {register : Register} (mnemonic : instruction.mnemonic = .extu)
      (operands : instruction.operands = [.register register])
      (named : register.number = some index) : Scales index instruction 1
  | double {register : Register} (mnemonic : instruction.mnemonic = .add)
      (operands : instruction.operands = [.register register, .register register])
      (named : register.number = some index) : Scales index instruction 2
  | shift {register : Register} (mnemonic : instruction.mnemonic = .shll ∨ instruction.mnemonic = .shal)
      (operands : instruction.operands = [.register register])
      (named : register.number = some index) : Scales index instruction 2
  | shiftTwice {register : Register} {width : Width}
      (mnemonic : instruction.mnemonic = .shll ∨ instruction.mnemonic = .shal)
      (operands : instruction.operands = [.immediate 2 width, .register register])
      (named : register.number = some index) : Scales index instruction 4

structure Code where
  load : Instruction
  /-- The scaling steps with their factors, the one before the load first. -/
  steps : List (Instruction × Nat)
  branch : Instruction
  comparison : Instruction

def Code.instructions (code : Code) : List Instruction :=
  code.load :: (code.steps.map Prod.fst ++ [code.branch, code.comparison])

/-- The code bounds an index and loads an element of the table into a register. -/
structure Code.Spells (code : Code) (mode : Mode) (pointer index : Fin 8) (table : SwitchTable) :
    Prop where
  load : ∃ (displacement : Int) (width : Width), code.load.LoadsAt index pointer displacement width ∧
    table.table = UInt32.ofInt displacement &&& mode.addressMask ∧ table.elementSize = width.bytes
  steps : ∀ step ∈ code.steps, Scales index step.1 step.2
  scale : (code.steps.map Prod.snd).prod = table.elementSize
  bound : ∃ bound, code.comparison.Compares index bound ∧
    (code.branch.BranchesTo .higher table.default ∧ table.count = bound + 1 ∨
      code.branch.BranchesTo .carryClear table.default ∧ table.count = bound)

section
variable {view : View} {mode : Mode} {address : Address} {count : Nat}

theorem length_preceding_le (view : View) (mode : Mode) (count : Nat) (address : Address) :
    (preceding view mode count address).length ≤ count := by
  induction count generalizing address with
  | zero => exact Nat.le_refl 0
  | succ count ih =>
    rcases preceding_succ view mode count address with empty | ⟨previous, _, -, -, -, walk⟩
    · simp [empty]
    · rw [walk, List.length_cons]
      exact Nat.succ_le_succ (ih previous)

theorem LeadsUp.isPrefix {path : List Instruction} (leads : LeadsUp view mode path address)
    (short : path.length ≤ count) : path <+: preceding view mode count address := by
  induction leads generalizing count with
  | nil address => exact List.nil_prefix
  | cons known decoded ends before ih =>
    obtain ⟨count, rfl⟩ := Nat.exists_eq_add_of_le' (Nat.one_le_of_lt short)
    rw [preceding_of_previous known decoded ends, List.prefix_cons_inj]
    exact ih (Nat.le_of_succ_le_succ short)

theorem leadsUp_of_isPrefix {path : List Instruction}
    (within : path <+: preceding view mode count address) : LeadsUp view mode path address := by
  induction path generalizing count address with
  | nil => exact .nil address
  | cons instruction path ih =>
    cases count with
    | zero => cases List.prefix_nil.mp within
    | succ count =>
      rcases preceding_succ view mode count address with
        empty | ⟨previous, nearest, known, decoded, ends, walk⟩
      · rw [empty] at within
        cases List.prefix_nil.mp within
      · rw [walk, List.cons_prefix_cons] at within
        obtain ⟨rfl, within⟩ := within
        obtain rfl := View.address_of_decodeAt decoded
        exact .cons known decoded ends (ih within)

theorem isPrefix_preceding_iff {path : List Instruction} :
    path <+: preceding view mode count address ↔
      path.length ≤ count ∧ LeadsUp view mode path address :=
  ⟨fun within => ⟨within.length_le.trans (length_preceding_le view mode count address),
    leadsUp_of_isPrefix within⟩, fun ⟨short, leads⟩ => leads.isPrefix short⟩

end

section
variable {mode : Mode} {index pointer : Fin 8} {instruction : Instruction}

theorem names_iff {operand : Operand} : names operand index = true ↔
    ∃ register, operand = .register register ∧ register.number = some index := by
  unfold names
  rw [decide_eq_true_eq]
  cases operand <;> simp [Operand.register?]

theorem factor_of_names {operand : Operand} {factor other : Nat}
    (found : (if names operand index then some factor else none) = some other) :
    ∃ register, operand = .register register ∧ register.number = some index ∧ factor = other := by
  obtain ⟨named, same⟩ := Option.ite_none_right_eq_some.mp found
  obtain ⟨register, written, number⟩ := names_iff.mp named
  exact ⟨register, written, number, Option.some.inj same⟩

theorem scaleStep?_eq_some_iff {factor : Nat} :
    scaleStep? index instruction = some factor ↔ Scales index instruction factor := by
  constructor
  · intro found
    unfold scaleStep? at found
    split at found
    · next mnemonic operands =>
      obtain ⟨register, rfl, named, rfl⟩ := factor_of_names found
      exact .extend mnemonic operands named
    · next mnemonic operands =>
      simp only [Bool.and_eq_true, decide_eq_true_eq, names_iff, Option.ite_none_right_eq_some,
        Option.some.injEq] at found
      obtain ⟨⟨⟨register, rfl, named⟩, rfl⟩, rfl⟩ := found
      exact .double mnemonic operands named
    · next mnemonic operands =>
      obtain ⟨register, rfl, named, rfl⟩ := factor_of_names found
      exact .shift (.inl mnemonic) operands named
    · next mnemonic operands =>
      obtain ⟨register, rfl, named, rfl⟩ := factor_of_names found
      exact .shift (.inr mnemonic) operands named
    · next mnemonic operands =>
      obtain ⟨register, rfl, named, rfl⟩ := factor_of_names found
      exact .shiftTwice (.inl mnemonic) operands named
    · next mnemonic operands =>
      obtain ⟨register, rfl, named, rfl⟩ := factor_of_names found
      exact .shiftTwice (.inr mnemonic) operands named
    · cases found
  · intro scales
    cases scales with
    | extend mnemonic operands named | double mnemonic operands named =>
      simp [scaleStep?, mnemonic, operands, names_iff, named]
    | shift mnemonic operands named | shiftTwice mnemonic operands named =>
      rcases mnemonic with mnemonic | mnemonic <;>
        simp [scaleStep?, mnemonic, operands, names_iff, named]

theorem pointer?_eq_some_iff : pointer? instruction = some pointer ↔ instruction.JumpsThrough pointer := by
  unfold Instruction.JumpsThrough
  constructor
  · intro found
    unfold pointer? at found
    split at found
    · next base _ mnemonic operands => exact ⟨mnemonic, base, by simp [operands], found⟩
    · cases found
  · rintro ⟨mnemonic, base, first, named⟩
    obtain ⟨rest, operands⟩ := List.head?_eq_some_iff.mp first
    simp [pointer?, mnemonic, operands, named]

theorem load?_eq_some_iff {load : Load} : load? mode pointer instruction = some load ↔
    ∃ (displacement : Int) (width : Width),
      instruction.LoadsAt load.index pointer displacement width ∧
        load.table = UInt32.ofInt displacement &&& mode.addressMask ∧
        load.elementSize = width.bytes := by
  constructor
  · intro found
    unfold load? at found
    split at found
    · next width base displacement field destination mnemonic sized operands =>
      simp only [ne_eq, Bool.and_eq_true, decide_eq_true_eq, Option.ite_none_right_eq_some,
        Option.map_eq_some_iff] at found
      obtain ⟨⟨wide, through⟩, index, named, rfl⟩ := found
      have widths : width = .word ∨ width = .long := by
        cases width <;> simp at wide ⊢
      exact ⟨displacement, width,
        ⟨mnemonic, sized, widths, base, destination, field, operands, named, through⟩, rfl, rfl⟩
    · cases found
  · obtain ⟨table, index, elementSize⟩ := load
    rintro ⟨displacement, width, ⟨mnemonic, sized, widths, base, destination, field, operands, named,
      through⟩, rfl, rfl⟩
    rcases widths with rfl | rfl <;> simp [load?, mnemonic, sized, operands, named, through]

theorem guard?_eq_some_iff {inclusive : Bool} {default : Address} :
    guard? instruction = some (inclusive, default) ↔
      instruction.BranchesTo (if inclusive then .higher else .carryClear) default := by
  unfold Instruction.BranchesTo
  constructor
  · intro found
    unfold guard? at found
    split at found
    case h_3 => cases found
    all_goals
      next displacement field _ mnemonic operands =>
      cases found
      exact ⟨mnemonic, displacement, field, by simp [operands]⟩
  · rintro ⟨mnemonic, displacement, field, first⟩
    obtain ⟨rest, operands⟩ := List.head?_eq_some_iff.mp first
    cases inclusive <;> simp_all [guard?]

theorem bound?_eq_some_iff {bound : Nat} :
    bound? index instruction = some bound ↔ instruction.Compares index bound := by
  unfold Instruction.Compares
  constructor
  · intro found
    unfold bound? at found
    split at found
    · next value width register mnemonic operands =>
      simp only [Option.ite_none_right_eq_some, Option.some.injEq] at found
      obtain ⟨named, rfl⟩ := found
      exact ⟨mnemonic, width, register, operands, named⟩
    · cases found
  · rintro ⟨mnemonic, width, register, operands, named⟩
    simp [bound?, mnemonic, operands, named]

theorem scaleStep?_of_branchesTo {condition : Condition} {target : Address}
    (branches : instruction.BranchesTo condition target) : scaleStep? index instruction = none := by
  simp [scaleStep?, branches.1]

theorem scaling_of_steps {steps : List (Instruction × Nat)}
    (scales : ∀ step ∈ steps, Scales index step.1 step.2)
    (stops : scaleStep? index instruction = none) (rest : List Instruction) :
    scaling index (steps.map Prod.fst ++ instruction :: rest) =
      ((steps.map Prod.snd).prod, instruction :: rest) := by
  induction steps with
  | nil => simp [scaling, stops]
  | cons step steps ih =>
    have first := scaleStep?_eq_some_iff.mpr (scales step (.head _))
    have later := ih fun other member => scales other (.tail _ member)
    simp [scaling, first, later]

theorem exists_steps {window rest : List Instruction} {scale : Nat}
    (scaled : scaling index window = (scale, rest)) :
    ∃ steps : List (Instruction × Nat), window = steps.map Prod.fst ++ rest ∧
      (∀ step ∈ steps, Scales index step.1 step.2) ∧ (steps.map Prod.snd).prod = scale := by
  induction window generalizing scale with
  | nil =>
    cases scaled
    exact ⟨[], rfl, (fun _ member => nomatch member), rfl⟩
  | cons first window ih =>
    rw [scaling] at scaled
    cases step : scaleStep? index first with
    | none =>
      simp only [step, Prod.mk.injEq] at scaled
      obtain ⟨rfl, rfl⟩ := scaled
      exact ⟨[], rfl, (fun _ member => nomatch member), rfl⟩
    | some factor =>
      simp only [step, Prod.mk.injEq] at scaled
      obtain ⟨rfl, rfl⟩ := scaled
      obtain ⟨steps, split, scales, product⟩ := ih rfl
      refine ⟨(first, factor) :: steps, by rw [List.map_cons, List.cons_append, ← split], ?_, ?_⟩
      · intro other member
        rcases List.mem_cons.mp member with rfl | later
        · exact scaleStep?_eq_some_iff.mp step
        · exact scales other later
      · rw [List.map_cons, List.prod_cons, product]

/-- The recognizer's reading of a window is code at its near end. -/
theorem idiom_iff {window : List Instruction} {table : SwitchTable} :
    (∃ load : Load, Idiom mode pointer window load table.default table.count ∧
        table.table = load.table ∧ table.elementSize = load.elementSize) ↔
      ∃ (index : Fin 8) (code : Code), code.Spells mode pointer index table ∧
        code.instructions <+: window := by
  obtain ⟨jump, table, elementSize, count, default, targets⟩ := table
  dsimp only
  constructor
  · rintro ⟨load, idiom, rfl, rfl⟩
    cases idiom with
    | @parts first branch comparison rest others _ inclusive _ bound loads scaled guards bounds =>
      obtain ⟨steps, rfl, scales, product⟩ := exists_steps scaled
      refine ⟨load.index, ⟨first, steps, branch, comparison⟩,
        ⟨load?_eq_some_iff.mp loads, scales, product, bound, bound?_eq_some_iff.mp bounds, ?_⟩,
        others, by simp [Code.instructions]⟩
      have branches := guard?_eq_some_iff.mp guards
      cases inclusive with
      | true => exact .inl ⟨branches, rfl⟩
      | false => exact .inr ⟨branches, rfl⟩
  · rintro ⟨index, ⟨first, steps, branch, comparison⟩, ⟨⟨displacement, width, loads, rfl, rfl⟩, scales,
      product, bound, compares, branches⟩, others, rfl⟩
    let load : Load := ⟨UInt32.ofInt displacement &&& mode.addressMask, index, width.bytes⟩
    have loaded : load? mode pointer first = some load :=
      load?_eq_some_iff.mpr ⟨displacement, width, loads, rfl, rfl⟩
    have bounded := bound?_eq_some_iff.mpr compares
    -- Both kinds of branch end the scaling steps, and then the rest is read alike.
    have parts (inclusive : Bool)
        (guards : branch.BranchesTo (if inclusive then .higher else .carryClear) default) :
        Idiom mode pointer (first :: (steps.map Prod.fst ++ branch :: comparison :: others)) load default
          (if inclusive then bound + 1 else bound) := by
      have scaled := scaling_of_steps scales (scaleStep?_of_branchesTo guards) (comparison :: others)
      exact .parts loaded (product ▸ scaled) (guard?_eq_some_iff.mpr guards) bounded
    refine ⟨load, ?_, rfl, rfl⟩
    simp only [Code.instructions, List.cons_append, List.append_assoc, List.nil_append]
    rcases branches with ⟨guards, rfl⟩ | ⟨guards, rfl⟩
    · exact parts true guards
    · exact parts false guards

end

@[simp] theorem Code.length_instructions (code : Code) :
    code.instructions.length = code.steps.length + 3 := by
  simp [instructions]

end Switch

theorem exists_code_of_findSwitch? {view : View} {mode : Mode} {jump : Instruction}
    {table : SwitchTable} (found : findSwitch? view mode jump = some table) :
    ∃ (pointer index : Fin 8) (code : Switch.Code), jump.JumpsThrough pointer ∧
      code.steps.length ≤ 4 ∧ Switch.LeadsUp view mode code.instructions jump.address ∧
      code.Spells mode pointer index table := by
  obtain ⟨pointer, through, found⟩ := findSwitch?_eq_some_iff.mp found
  obtain ⟨load, idiom, -, -, -, -, atTable, sized⟩ := Switch.table?_eq_some_iff.mp found
  obtain ⟨index, code, spells, within⟩ := Switch.idiom_iff.mp ⟨load, idiom, atTable, sized⟩
  obtain ⟨short, leads⟩ := Switch.isPrefix_preceding_iff.mp within
  rw [Switch.Code.length_instructions] at short
  exact ⟨pointer, index, code, Switch.pointer?_eq_some_iff.mp through,
    Nat.le_of_add_le_add_right short, leads, spells⟩

/-- A jump table is recognized exactly where the known instructions in front of
the jump bound an index, scale it in at most four steps to the size of an element
and load that element of the table, and where the whole table can be read. -/
theorem findSwitch?_recognises_idiom (view : View) (mode : Mode) (jump : Instruction)
    (table : SwitchTable) :
    findSwitch? view mode jump = some table ↔
      table.jump = jump.address ∧ table.Read view mode ∧
        ∃ (pointer index : Fin 8) (code : Switch.Code), jump.JumpsThrough pointer ∧
          code.steps.length ≤ 4 ∧ Switch.LeadsUp view mode code.instructions jump.address ∧
          code.Spells mode pointer index table := by
  constructor
  · intro found
    obtain ⟨atJump, read⟩ := read_of_findSwitch? found
    exact ⟨atJump, read, exists_code_of_findSwitch? found⟩
  · rintro ⟨atJump, read, pointer, index, code, through, few, leads, spells⟩
    have short : code.instructions.length ≤ switchWindow - 1 := by
      rw [Switch.Code.length_instructions]
      exact Nat.add_le_add_right few 3
    have within := Switch.isPrefix_preceding_iff.mpr ⟨short, leads⟩
    obtain ⟨load, idiom, atTable, sized⟩ := Switch.idiom_iff.mpr ⟨index, code, spells, within⟩
    have elements : (List.range table.count).mapM (Switch.element? view mode load) =
        some table.targets := by
      refine Switch.mapM_range_eq_some_iff.mpr ⟨read.count, fun position inside => ?_⟩
      rw [read.elements position inside, atTable, sized, Switch.element?_eq]
    exact findSwitch?_eq_some_iff.mpr ⟨pointer, Switch.pointer?_eq_some_iff.mpr through,
      Switch.table?_eq_some_iff.mpr
        ⟨load, idiom, read.pos, read.few, elements, atJump, atTable, sized⟩⟩

end H8
