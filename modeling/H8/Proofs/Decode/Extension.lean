import H8.Proofs.Decode.Identity

/-! The H8S extends the H8/300H conservatively.

An opcode that needs the H8S, for itself or for a register that it names, takes
no encoding away from the other core: where it competes with an opcode of both
cores, that one is more specific. So whatever the smaller core reads, the
larger one reads in the same way, up to the name of the longest field.
-/

set_option autoImplicit false

namespace H8

open Encoding

/-- The registers that an operand names. A register list is named by its first. -/
def Operand.registers : Operand → List Register
  | .register name => [name]
  | .registerList first _ => [first]
  | .indirect base | .displaced base _ _ | .postIncrement base | .preDecrement base => [base]
  | .immediate _ _ | .absolute _ _ | .relative _ _ _ | .vector _ | .bit _ => []

def Instruction.registers (instruction : Instruction) : List Register :=
  instruction.operands.flatMap Operand.registers

def FieldWidth.onCore : Core → FieldWidth → FieldWidth
  | .h8s, .bits24 => .bits32
  | .h8300h, .bits32 => .bits24
  | _, field => field

def Operand.onCore (core : Core) : Operand → Operand
  | .absolute address field => .absolute address (field.onCore core)
  | .displaced base displacement field => .displaced base displacement (field.onCore core)
  | operand => operand

def Instruction.onCore (core : Core) (instruction : Instruction) : Instruction :=
  if instruction.longForm then
    { instruction with operands := instruction.operands.map (Operand.onCore core) }
  else instruction

theorem FieldWidth.onCore_longForm (core other : Core) (space : Space) :
    (FieldWidth.longForm ⟨other, space⟩).onCore core = FieldWidth.longForm ⟨core, space⟩ := by
  cases core <;> cases other <;> rfl

def Encoding.Slot.isH8SOnly : Slot → Bool
  | .control register => register.isH8SOnly
  | _ => false

namespace Encoding.Slot
variable {slot : Slot} {space : Space} {mode : Mode} {next : Address} {field : Char → Nat}
  {operand : Operand}

theorem operand_eq_of_short (core other : Core) (shared : slot.isH8SOnly = false)
    (short : slot.isLong = false) :
    slot.operand ⟨core, space⟩ next field = slot.operand ⟨other, space⟩ next field := by
  cases slot with
  | control register =>
    change register.isH8SOnly = false at shared
    simp only [Slot.operand, shared, Bool.false_and, Bool.false_eq_true, if_false]
  | dispLong letter base | absLong letter => cases short
  | _ => rfl

def isAbs24 : Slot → Bool
  | .abs24 _ => true
  | _ => false

/-- Beside a long operand, only the name of its field depends on the core. -/
theorem operand_onCore (core other : Core) (shared : slot.isH8SOnly = false)
    (long : slot.isAbs24 = false) :
    slot.operand ⟨core, space⟩ next field =
      (slot.operand ⟨other, space⟩ next field).map (Operand.onCore core) := by
  cases slot with
  | control register =>
    change register.isH8SOnly = false at shared
    simp only [Slot.operand, shared, Bool.false_and, Bool.false_eq_true, if_false]
    rfl
  | dispLong letter base =>
    simp only [Slot.operand, Except.map, Operand.onCore, FieldWidth.onCore_longForm]
  | absLong letter =>
    simp only [Slot.operand, Except.map, Operand.onCore, FieldWidth.onCore_longForm]
    rfl
  | abs24 letter => cases long
  | listTo last count | listFrom first count =>
    simp only [Slot.operand]
    split <;> rfl
  | disp16 letter base | abs8 letter | abs16 letter => cases core <;> rfl
  | _ => rfl

theorem isH8SOnly_of_operand (made : slot.operand mode next field = .ok operand) :
    operand.registers.any Register.isH8SOnly = slot.isH8SOnly := by
  cases slot with
  | control register =>
    simp only [Slot.operand] at made
    split at made
    · cases made
    · cases made
      exact Bool.or_false _
  | listTo last count | listFrom first count =>
    simp only [Slot.operand] at made
    split at made
    · cases made
    · cases made
      rfl
  | _ =>
    cases made
    rfl

theorem operand_of_isH8SOnly (needs : slot.isH8SOnly = true) :
    slot.operand ⟨.h8300h, space⟩ next field = .error .illegalOperand := by
  cases slot with
  | control register => exact if_pos (Bool.and_eq_true_iff.mpr ⟨needs, rfl⟩)
  | _ => cases needs

theorem isH8SOnly_of_illegal (failed : slot.operand mode next field = .error .illegalOperand) :
    slot.isH8SOnly = true := by
  cases slot with
  | control register =>
    simp only [Slot.operand] at failed
    split at failed
    · next illegal => exact (Bool.and_eq_true_iff.mp illegal).1
    · cases failed
  | listTo last count | listFrom first count =>
    simp only [Slot.operand] at failed
    split at failed <;> cases failed
  | _ => cases failed

end Encoding.Slot

namespace Encoding

namespace Pattern

def FixedIn (pattern : Pattern) (bytes : List UInt8) : Prop :=
  ∀ (position : Nat) (value : Bool), pattern.bits[position]? = some (.fixed value) →
    bitAt bytes position = value

def follows (pattern first second : Pattern) : Bool :=
  pattern.bits.zipIdx.all fun (bit, position) =>
    !isFixed bit || first.bits[position]? == some bit || second.bits[position]? == some bit

theorem fixedIn_of_follows {pattern first second : Pattern} {bytes : List UInt8}
    (follows : pattern.follows first second = true) (left : first.FixedIn bytes)
    (right : second.FixedIn bytes) : pattern.FixedIn bytes := by
  intro position value bit
  have stored := List.all_eq_true.mp follows (.fixed value, position)
    (List.mem_zipIdx_iff_getElem?.mpr bit)
  simp only [isFixed, Bool.not_true, Bool.false_or, Bool.or_eq_true, beq_iff_eq] at stored
  rcases stored with inFirst | inSecond
  · exact left position value inFirst
  · exact right position value inSecond

end Pattern

namespace Opcode

def namesH8S (opcode : Opcode) : Bool := opcode.slots.any Slot.isH8SOnly

def isPlain (opcode : Opcode) : Bool :=
  opcode.slots.all fun slot => !slot.isH8SOnly && slot.list?.isNone

/-- An opcode of both cores is chosen before the other wherever that one fits and
the bytes have the fixed bits of the pattern. -/
def supersedes (opcode other : Opcode) (pattern : Pattern) : Bool :=
  opcode.core = .h8300h && opcode.isPlain &&
    Nat.ble opcode.pattern.length other.pattern.length &&
    Nat.blt other.pattern.fixedBits opcode.pattern.fixedBits &&
    opcode.pattern.follows other.pattern pattern

def yields (first second : Opcode) : Bool :=
  first.pattern.clashes second.pattern ||
    (!second.namesH8S && Nat.blt first.pattern.fixedBits second.pattern.fixedBits) ||
    opcodes.any fun opcode => opcode.supersedes first second.pattern &&
      Nat.blt second.pattern.fixedBits opcode.pattern.fixedBits

end Opcode

structure Layered (table : List Opcode) : Prop where
  yields : ∀ first ∈ table, first.core = .h8s →
    ∀ second ∈ table, second.core = .h8300h → first.yields second = true
  /-- The opcodes that name registers of the H8S have encodings of their own. -/
  clashes : ∀ first ∈ table, first.namesH8S = true →
    ∀ second ∈ table, second.namesH8S = false → first.pattern.clashes second.pattern = true
  shared : ∀ opcode ∈ table, opcode.namesH8S = true →
    opcode.core = .h8300h ∧ ∀ slot ∈ opcode.slots, slot.list? = none
  long : ∀ opcode ∈ table, opcode.slots.any Slot.isLong = true →
    ∀ slot ∈ opcode.slots, slot.isAbs24 = false

theorem layered_opcodes : Layered opcodes where
  yields := by decide +kernel
  clashes := by decide +kernel
  shared := by decide +kernel
  long := by decide +kernel

namespace Opcode
variable {opcode first second : Opcode} {bytes : List UInt8} {address : Address} {mode : Mode}
  {space : Space} {instruction : Instruction}

theorem fits_h8300h_iff :
    opcode.Fits bytes ⟨.h8300h, space⟩ ↔ opcode.core = .h8300h ∧ opcode.Fits bytes ⟨.h8s, space⟩ := by
  unfold Fits
  cases opcode.core <;> simp [Mode.supports, Mode.isH8S]

theorem awaits_h8s (awaits : opcode.Awaits bytes ⟨.h8300h, space⟩) :
    opcode.Awaits bytes ⟨.h8s, space⟩ := by
  refine ⟨?_, awaits.2⟩
  cases opcode.core <;> rfl

/-- What an opcode makes of the bytes is the same on both cores, unless it names
a register that one of them lacks. -/
theorem build_onCore (member : opcode ∈ opcodes) (shared : opcode.namesH8S = false)
    (core other : Core) :
    opcode.build bytes address ⟨core, space⟩ =
      (opcode.build bytes address ⟨other, space⟩).map (Instruction.onCore core) := by
  have common (slot : Slot) (present : slot ∈ opcode.slots) : slot.isH8SOnly = false :=
    Bool.eq_false_iff.mpr (List.any_eq_false.mp shared slot present)
  rw [build_eq, build_eq]
  cases long : opcode.slots.any Slot.isLong with
  | false =>
    have short (slot : Slot) (present : slot ∈ opcode.slots) : slot.isLong = false :=
      Bool.eq_false_iff.mpr (List.any_eq_false.mp long slot present)
    rw [mapM_congr fun slot present => Slot.operand_eq_of_short core other
      (common slot present) (short slot present)]
    cases opcode.slots.mapM (Slot.operand ⟨other, space⟩ (opcode.following address)
        (opcode.pattern.field bytes)) with
    | error error => rfl
    | ok operands => simp [Except.map, Instruction.onCore, assemble, long]
  | true =>
    rw [mapM_eq_map fun slot present => Slot.operand_onCore core other
      (common slot present) (layered_opcodes.long opcode member long slot present)]
    cases opcode.slots.mapM (Slot.operand ⟨other, space⟩ (opcode.following address)
        (opcode.pattern.field bytes)) with
    | error error => rfl
    | ok operands => simp [Except.map, Instruction.onCore, assemble, long]

theorem namesH8S_of_illegal (failed : opcode.build bytes address mode = .error .illegalOperand) :
    opcode.namesH8S = true := by
  obtain ⟨slot, present, slotFailed⟩ := exists_of_build_eq_error failed
  exact List.any_eq_true.mpr ⟨slot, present, Slot.isH8SOnly_of_illegal slotFailed⟩

theorem exists_build_of_isPlain (plain : opcode.isPlain = true) (bytes : List UInt8)
    (address : Address) (mode : Mode) :
    ∃ instruction, opcode.build bytes address mode = .ok instruction := by
  cases built : opcode.build bytes address mode with
  | ok instruction => exact ⟨instruction, rfl⟩
  | error error =>
    exfalso
    obtain ⟨slot, present, failed⟩ := exists_of_build_eq_error built
    have allowed := List.all_eq_true.mp plain slot present
    rw [Bool.and_eq_true, Option.isNone_iff_eq_none] at allowed
    rcases Slot.operand_eq_error failed with rfl | ⟨last, count, rfl, -⟩ | ⟨first, count, rfl, -⟩
    · simp [Slot.isH8SOnly_of_illegal failed] at allowed
    · cases allowed.2
    · cases allowed.2

theorem build_of_namesH8S (member : opcode ∈ opcodes) (names : opcode.namesH8S = true) :
    opcode.build bytes address ⟨.h8300h, space⟩ = .error .illegalOperand := by
  obtain ⟨slot, present, needs⟩ := List.any_eq_true.mp names
  cases built : opcode.build bytes address ⟨.h8300h, space⟩ with
  | ok instruction =>
    obtain ⟨operands, made, -⟩ := build_eq_ok_iff.mp built
    obtain ⟨operand, some⟩ := exists_of_forall₂ made present
    rw [Slot.operand_of_isH8SOnly needs] at some
    cases some
  | error error =>
    obtain ⟨other, found, failed⟩ := exists_of_build_eq_error built
    have single := (layered_opcodes.shared opcode member names).2 other found
    rcases Slot.operand_eq_error failed with rfl | ⟨last, count, rfl, -⟩ | ⟨first, count, rfl, -⟩
    · rfl
    · cases single
    · cases single

theorem namesH8S_of_build (built : opcode.build bytes address mode = .ok instruction) :
    instruction.registers.any Register.isH8SOnly = opcode.namesH8S := by
  obtain ⟨operands, made, rfl⟩ := build_eq_ok_iff.mp built
  change (operands.flatMap Operand.registers).any _ = opcode.slots.any _
  clear built
  generalize opcode.slots = slots at made
  induction made with
  | nil => rfl
  | cons first _ ih =>
    rw [List.flatMap_cons, List.any_append, ih, Slot.isH8SOnly_of_operand first, List.any_cons]

theorem h8sOnly_of_build (built : opcode.build bytes address mode = .ok instruction) :
    instruction.h8sOnly = decide (opcode.core = .h8s) := by
  obtain ⟨operands, -, rfl⟩ := build_eq_ok_iff.mp built
  rfl

theorem not_clashes_of_fits (left : first ∈ opcodes) (right : second ∈ opcodes)
    (fits : first.Fits bytes mode) (alsoFits : second.Fits bytes mode) :
    first.pattern.clashes second.pattern = false :=
  separated_opcodes.not_clashes left right fits.2 (by simp [alsoFits.2])

theorem fixedIn_of_fits (member : opcode ∈ opcodes) (fits : opcode.Fits bytes mode) :
    opcode.pattern.FixedIn bytes :=
  ((Pattern.compare_eq_full_iff_bitAt (separated_opcodes.whole opcode member)).mp fits.2).2

/-- The opcode that supersedes another fits in every mode, and gives an instruction. -/
theorem isSome_of_supersedes {pattern : Pattern} (member : opcode ∈ opcodes)
    (left : first ∈ opcodes) (fits : first.Fits bytes mode) (fixed : pattern.FixedIn bytes)
    (supersedes : opcode.supersedes first pattern = true) :
    first.pattern.fixedBits < opcode.pattern.fixedBits ∧
      ∀ other : Mode, (opcode.result? bytes address other).isSome = true := by
  simp only [Opcode.supersedes, Bool.and_eq_true, decide_eq_true_eq] at supersedes
  obtain ⟨⟨⟨⟨shared, plain⟩, short⟩, above⟩, follows⟩ := supersedes
  refine ⟨Nat.le_of_ble_eq_true above, fun other => ?_⟩
  have covered := (Nat.le_of_ble_eq_true short).trans
    (length_le_of_fits (separated_opcodes.whole first left) fits)
  have alsoFits : opcode.Fits bytes other := by
    refine ⟨by rw [shared]; rfl,
      (Pattern.compare_eq_full_iff_bitAt (separated_opcodes.whole opcode member)).mpr
        ⟨covered, ?_⟩⟩
    exact Pattern.fixedIn_of_follows follows (fixedIn_of_fits left fits) fixed
  obtain ⟨instruction, made⟩ := exists_build_of_isPlain plain bytes address other
  exact Option.isSome_iff_exists.mpr ⟨instruction, result?_eq_some_iff.mpr ⟨alsoFits, made⟩⟩

/-- Where an opcode of the H8S fits beside one of both cores, one of both cores
is more specific: the other itself, or one that supersedes them. -/
theorem exists_more_specific (left : first ∈ opcodes) (extended : first.core = .h8s)
    (right : second ∈ opcodes) (shared : second.core = .h8300h)
    (fits : first.Fits bytes ⟨.h8s, space⟩) (alsoFits : second.Fits bytes ⟨.h8s, space⟩) :
    second.namesH8S = false ∧ first.pattern.fixedBits < second.pattern.fixedBits ∨
      ∃ third ∈ opcodes, (third.result? bytes address ⟨.h8300h, space⟩).isSome = true ∧
        first.pattern.fixedBits < third.pattern.fixedBits ∧
        second.pattern.fixedBits < third.pattern.fixedBits := by
  have yields := layered_opcodes.yields first left extended second right shared
  rw [Opcode.yields, not_clashes_of_fits left right fits alsoFits, Bool.false_or,
    Bool.or_eq_true, Bool.and_eq_true, List.any_eq_true] at yields
  rcases yields with ⟨common, more⟩ | ⟨third, member, best⟩
  · exact .inl ⟨by simpa using common, Nat.le_of_ble_eq_true more⟩
  · obtain ⟨supersedes, alsoAbove⟩ := Bool.and_eq_true_iff.mp best
    obtain ⟨above, gives⟩ := isSome_of_supersedes member left fits (fixedIn_of_fits right alsoFits)
      supersedes
    exact .inr ⟨third, member, gives _, above, Nat.le_of_ble_eq_true alsoAbove⟩

theorem not_namesH8S_of_result? (member : opcode ∈ opcodes)
    (built : opcode.result? bytes address ⟨.h8300h, space⟩ = some instruction) :
    opcode.namesH8S = false := by
  apply Bool.eq_false_iff.mpr
  intro names
  have refused := (result?_eq_some_iff.mp built).2
  rw [build_of_namesH8S member names] at refused
  cases refused

theorem result?_h8s (member : opcode ∈ opcodes)
    (built : opcode.result? bytes address ⟨.h8300h, space⟩ = some instruction) :
    opcode.result? bytes address ⟨.h8s, space⟩ = some (instruction.onCore .h8s) := by
  obtain ⟨fits, made⟩ := result?_eq_some_iff.mp built
  refine result?_eq_some_iff.mpr ⟨(fits_h8300h_iff.mp fits).2, ?_⟩
  rw [build_onCore member (not_namesH8S_of_result? member built) .h8s .h8300h, made]
  rfl

/-- What the H8S gives, the H8/300H gives as well, if it has the opcode and its
registers. -/
theorem result?_h8300h (member : opcode ∈ opcodes) (shared : opcode.core = .h8300h)
    (common : opcode.namesH8S = false)
    (built : opcode.result? bytes address ⟨.h8s, space⟩ = some instruction) :
    opcode.result? bytes address ⟨.h8300h, space⟩ = some (instruction.onCore .h8300h) := by
  obtain ⟨fits, made⟩ := result?_eq_some_iff.mp built
  refine result?_eq_some_iff.mpr ⟨fits_h8300h_iff.mpr ⟨shared, fits⟩, ?_⟩
  rw [build_onCore member common .h8300h .h8s, made]
  rfl

end Opcode

end Encoding

section
variable {bytes : List UInt8} {address : Address} {space : Space} {opcode : Opcode}
  {instruction : Instruction}

theorem Reads.h8s
    (reads : Reads opcodes bytes address ⟨.h8300h, space⟩ (.ok instruction)) :
    Reads opcodes bytes address ⟨.h8s, space⟩ (.ok (instruction.onCore .h8s)) := by
  cases reads with
  | @decoded opcode _ member built best =>
    have common := Opcode.not_namesH8S_of_result? member built
    have fits := Opcode.fits_of_result? built
    refine .decoded member (Opcode.result?_h8s member built) fun other found gives => ?_
    have otherFits := Opcode.fits_of_isSome gives
    obtain ⟨shared, alsoFits⟩ := Opcode.fits_h8300h_iff.mp fits
    cases core : other.core with
    | h8s =>
      rcases Opcode.exists_more_specific found core member shared otherFits alsoFits with
        ⟨-, fewer⟩ | ⟨third, thirdMember, thirdGives, -, above⟩
      · exact .inr fewer
      · -- The one that supersedes both would have been chosen.
        rcases best third thirdMember thirdGives with rfl | fewer <;> omega
    | h8300h =>
      cases names : other.namesH8S with
      | true =>
        have clash := layered_opcodes.clashes other found names opcode member common
        rw [Opcode.not_clashes_of_fits found member otherFits alsoFits] at clash
        cases clash
      | false =>
        obtain ⟨result, made⟩ := Option.isSome_iff_exists.mp gives
        exact best other found (by simp [Opcode.result?_h8300h found core names made])

theorem reads_h8300h_of_shared (member : opcode ∈ opcodes)
    (built : opcode.result? bytes address ⟨.h8s, space⟩ = some instruction)
    (best : ∀ other ∈ opcodes, (other.result? bytes address ⟨.h8s, space⟩).isSome = true →
      other = opcode ∨ other.pattern.fixedBits < opcode.pattern.fixedBits)
    (shared : opcode.core = .h8300h) (common : opcode.namesH8S = false) :
    Reads opcodes bytes address ⟨.h8300h, space⟩ (.ok (instruction.onCore .h8300h)) := by
  refine .decoded member (Opcode.result?_h8300h member shared common built) ?_
  intro other found gives
  obtain ⟨result, made⟩ := Option.isSome_iff_exists.mp gives
  exact best other found (by simp [Opcode.result?_h8s found made])

theorem reads_h8300h_of_namesH8S (member : opcode ∈ opcodes)
    (fits : opcode.Fits bytes ⟨.h8s, space⟩) (names : opcode.namesH8S = true) :
    Reads opcodes bytes address ⟨.h8300h, space⟩ (.error .illegalOperand) := by
  have shared := (layered_opcodes.shared opcode member names).1
  refine .illegal member ⟨Opcode.fits_h8300h_iff.mpr ⟨shared, fits⟩,
    Opcode.build_of_namesH8S member names⟩ fun other found => ?_
  by_contra built
  obtain ⟨result, made⟩ := Option.ne_none_iff_exists'.mp built
  have clash := layered_opcodes.clashes opcode member names other found
    (Opcode.not_namesH8S_of_result? found made)
  rw [Opcode.not_clashes_of_fits member found fits
    (Opcode.fits_h8300h_iff.mp (Opcode.fits_of_result? made)).2] at clash
  cases clash

theorem reads_h8300h_of_extended (member : opcode ∈ opcodes)
    (built : opcode.result? bytes address ⟨.h8s, space⟩ = some instruction)
    (best : ∀ other ∈ opcodes, (other.result? bytes address ⟨.h8s, space⟩).isSome = true →
      other = opcode ∨ other.pattern.fixedBits < opcode.pattern.fixedBits)
    (extended : opcode.core = .h8s) :
    Reads opcodes bytes address ⟨.h8300h, space⟩ (.error .unknownOpcode) := by
  have fits := Opcode.fits_of_result? built
  -- Nothing that both cores have is more specific, since the H8S would choose it.
  have beaten {other : Opcode} (found : other ∈ opcodes) {result : Instruction}
      (gives : other.result? bytes address ⟨.h8300h, space⟩ = some result) :
      other.pattern.fixedBits < opcode.pattern.fixedBits := by
    have shared := (Opcode.fits_h8300h_iff.mp (Opcode.fits_of_result? gives)).1
    rcases best other found (by simp [Opcode.result?_h8s found gives]) with rfl | fewer
    · rw [shared] at extended
      cases extended
    · exact fewer
  have rival {other : Opcode} (found : other ∈ opcodes)
      (otherFits : other.Fits bytes ⟨.h8300h, space⟩) :
      other.namesH8S = false ∧ opcode.pattern.fixedBits < other.pattern.fixedBits := by
    obtain ⟨shared, alsoFits⟩ := Opcode.fits_h8300h_iff.mp otherFits
    rcases Opcode.exists_more_specific member extended found shared fits alsoFits with
      above | ⟨third, thirdMember, thirdGives, above, -⟩
    · exact above
    · obtain ⟨better, made⟩ := Option.isSome_iff_exists.mp thirdGives
      have below := beaten thirdMember made
      omega
  have present : bytes ≠ [] := by
    rintro rfl
    have whole := separated_opcodes.whole opcode member
    have covered := Opcode.length_le_of_fits whole fits
    have positive := whole.2.1
    simp only [List.length_nil] at covered
    omega
  refine .unknown present (fun other found awaits => ?_) (fun other found => ?_)
    fun other found forbidden => ?_
  · exact separated_opcodes.settled member fits other found (Opcode.awaits_h8s awaits)
  · by_contra gives
    obtain ⟨result, made⟩ := Option.ne_none_iff_exists'.mp gives
    have below := beaten found made
    have above := (rival found (Opcode.fits_of_result? made)).2
    omega
  · have names := Opcode.namesH8S_of_illegal forbidden.2
    rw [(rival found forbidden.1).1] at names
    cases names

end

/-- Whatever the H8/300H decodes, the H8S decodes to the same instruction, up to
the name of a long field. Conversely, an instruction of the H8S is the same on
the H8/300H, or it names a register of the H8S and is illegal there, or it is
of the H8S only and unknown there. -/
theorem h8s_extends_h8300h (bytes : List UInt8) (address : Address) (space : Space) :
    (∀ instruction, decode bytes address ⟨.h8300h, space⟩ = .ok instruction →
      decode bytes address ⟨.h8s, space⟩ = .ok (instruction.onCore .h8s)) ∧
    ∀ instruction, decode bytes address ⟨.h8s, space⟩ = .ok instruction →
      (instruction.h8sOnly = false →
        (∀ register ∈ instruction.registers, register.isH8SOnly = false) →
        decode bytes address ⟨.h8300h, space⟩ = .ok (instruction.onCore .h8300h)) ∧
      ((∃ register ∈ instruction.registers, register.isH8SOnly = true) →
        decode bytes address ⟨.h8300h, space⟩ = .error .illegalOperand) ∧
      (instruction.h8sOnly = true →
        decode bytes address ⟨.h8300h, space⟩ = .error .unknownOpcode) := by
  have smaller := reads_decode bytes address ⟨.h8300h, space⟩
  have larger := reads_decode bytes address ⟨.h8s, space⟩
  constructor
  · intro instruction decoded
    rw [decoded] at smaller
    exact larger.functional smaller.h8s
  · intro instruction decoded
    rw [decoded] at larger
    cases larger with
    | @decoded opcode _ member built best =>
      have made := (Opcode.result?_eq_some_iff.mp built).2
      have only := Opcode.h8sOnly_of_build made
      have names := Opcode.namesH8S_of_build made
      refine ⟨fun shared common => ?_, fun named => ?_, fun extended => ?_⟩
      · rw [List.any_eq_false.mpr fun register found => by simp [common register found]] at names
        have core : opcode.core = .h8300h := by
          cases core : opcode.core with
          | h8300h => rfl
          | h8s => simp [core, shared] at only
        exact smaller.functional (reads_h8300h_of_shared member built best core names.symm)
      · rw [List.any_eq_true.mpr named] at names
        exact smaller.functional (reads_h8300h_of_namesH8S member (Opcode.fits_of_result? built)
          names.symm)
      · rw [extended, eq_comm, decide_eq_true_eq] at only
        exact smaller.functional (reads_h8300h_of_extended member built best only)

/-- A long load is renamed; a pop is kept although a register list competes with
it; a register list is unknown to the smaller core, and a register illegal. -/
theorem h8s_extends_h8300h_samples :
    decode [0x6A, 0x28, 0x00, 0x12, 0x34, 0x56] 0x100 ⟨.h8s, .advanced⟩ =
        .ok ⟨0x100, 6, .mov, some .byte,
          [.absolute 0x123456 .bits32, .register (.byte 8)], true, false⟩ ∧
      decode [0x01, 0x00, 0x6D, 0x75] 0x100 ⟨.h8300h, .advanced⟩ =
        .ok ⟨0x100, 4, .pop, some .long, [.register (.general .whole 5)], false, false⟩ ∧
      decode [0x01, 0x10, 0x6D, 0x75] 0x100 ⟨.h8300h, .advanced⟩ = .error .unknownOpcode ∧
      decode [0x03, 0x18] 0x100 ⟨.h8300h, .advanced⟩ = .error .illegalOperand := by
  have load : decode [0x6A, 0x28, 0x00, 0x12, 0x34, 0x56] 0x100 ⟨.h8300h, .advanced⟩ =
      .ok ⟨0x100, 6, .mov, some .byte,
        [.absolute 0x123456 .bits24, .register (.byte 8)], true, false⟩ :=
    (decode_eq_decodeWith ..).trans (by decide +kernel)
  have pop : decode [0x01, 0x00, 0x6D, 0x75] 0x100 ⟨.h8s, .advanced⟩ =
      .ok ⟨0x100, 4, .pop, some .long, [.register (.general .whole 5)], false, false⟩ :=
    (decode_eq_decodeWith ..).trans (by decide +kernel)
  have list : decode [0x01, 0x10, 0x6D, 0x75] 0x100 ⟨.h8s, .advanced⟩ =
      .ok ⟨0x100, 4, .ldm, some .long,
        [.postIncrement .stackPointer, .registerList (.general .whole 4) 2], false, true⟩ :=
    (decode_eq_decodeWith ..).trans (by decide +kernel)
  have control : decode [0x03, 0x18] 0x100 ⟨.h8s, .advanced⟩ =
      .ok ⟨0x100, 2, .ldc, some .byte,
        [.register (.byte 8), .register (.control .exr)], false, false⟩ :=
    (decode_eq_decodeWith ..).trans (by decide +kernel)
  refine ⟨(h8s_extends_h8300h _ _ _).1 _ load, ?_, ?_, ?_⟩
  · exact ((h8s_extends_h8300h _ _ _).2 _ pop).1 rfl (by decide)
  · exact ((h8s_extends_h8300h _ _ _).2 _ list).2.2 rfl
  · exact ((h8s_extends_h8300h _ _ _).2 _ control).2.1 (by decide)

end H8
