import H8.Proofs.Decode.Identity
import H8.Proofs.Decode.Operands

/-! Decoding loses exactly the reserved bytes.

Each bit of an encoding is fixed, shows in the instruction, or belongs to a
reserved byte. So two encodings of one instruction agree in all other bytes,
and changing a reserved byte changes nothing.
-/

set_option autoImplicit false

namespace H8

open Encoding

def Operand.isAbsolute : Operand → Bool
  | .absolute _ _ => true
  | _ => false

/-- The bytes of an encoding that do not show in its instruction. The first of a
four byte field never does. Where addresses have 16 bits, neither does the
next one of an address, nor the first of the three bytes in a jump or call.
Such fields end the encoding. -/
def Instruction.reserves (instruction : Instruction) (space : Space) (position : Nat) : Bool :=
  (instruction.longForm && position + 4 == instruction.length) ||
    (space == .normal && instruction.operands.any Operand.isAbsolute &&
      (instruction.longForm || instruction.isTransfer) && position + 3 == instruction.length)

def Kind.isAbsolute : Kind → Bool
  | .absolute _ => true
  | _ => false

theorem Operand.isAbsolute_kind (operand : Operand) : operand.kind.isAbsolute = operand.isAbsolute := by
  cases operand with
  | register name =>
    cases name with
    | general part _ => cases part <;> rfl
    | control register => rfl
  | _ => rfl

namespace Encoding

def maskOf : List Nat → Nat
  | [] => 0
  | position :: positions => Nat.lor (Nat.shiftLeft 1 position) (maskOf positions)

theorem testBit_maskOf {positions : List Nat} {position : Nat} :
    (maskOf positions).testBit position = true ↔ position ∈ positions := by
  induction positions with
  | nil => simp [maskOf]
  | cons first positions ih =>
    change (1 <<< first ||| maskOf positions).testBit position = true ↔ _
    rw [Nat.testBit_or, Bool.or_eq_true, ih, List.mem_cons, Nat.one_shiftLeft, Nat.testBit_two_pow]
    simp [eq_comm]

namespace Opcode

def isTransfer (opcode : Opcode) : Bool :=
  opcode.mnemonic = .jmp || opcode.mnemonic = .jsr

def reserves (opcode : Opcode) (space : Space) (position : Nat) : Bool :=
  (opcode.slots.any Slot.isLong && position + 4 == opcode.pattern.length) ||
    (space == .normal && (opcode.slots.map Slot.kind).any Kind.isAbsolute &&
      (opcode.slots.any Slot.isLong || opcode.isTransfer) && position + 3 == opcode.pattern.length)

def kept (opcode : Opcode) (space : Space) : List (Char × Nat) :=
  opcode.condition.toList.map (·, 4) ++ opcode.slots.flatMap (Slot.kept space)

def keptPositions (opcode : Opcode) (space : Space) : List Nat :=
  (opcode.kept space).flatMap fun field => opcode.pattern.lastPositions field.1 field.2

/-- Each bit is fixed, or shows, or is in a reserved byte; never two of these. -/
def accounts (opcode : Opcode) (space : Space) : Bool :=
  opcode.pattern.bits.zipIdx.all fun (bit, position) =>
    match bit with
    | .fixed _ => !opcode.reserves space (position / 8)
    | .field _ =>
      (maskOf (opcode.keptPositions space)).testBit position != opcode.reserves space (position / 8)

end Opcode

theorem accounts_opcodes : ∀ opcode ∈ opcodes,
    (opcode.accounts .normal && opcode.accounts .advanced) = true := by
  decide +kernel

namespace Opcode
variable {opcode : Opcode} {space : Space} {position : Nat}

theorem accounts_of_mem (member : opcode ∈ opcodes) (space : Space) :
    opcode.accounts space = true := by
  have both := Bool.and_eq_true_iff.mp (accounts_opcodes opcode member)
  cases space
  · exact both.1
  · exact both.2

theorem not_reserves_of_fixed (member : opcode ∈ opcodes) (space : Space) {value : Bool}
    (bit : opcode.pattern.bits[position]? = some (.fixed value)) :
    opcode.reserves space (position / 8) = false := by
  have all := List.all_eq_true.mp (accounts_of_mem member space) (.fixed value, position)
    (List.mem_zipIdx_iff_getElem?.mpr bit)
  simpa using all

theorem mem_keptPositions_iff (member : opcode ∈ opcodes) {letter : Char}
    (bit : opcode.pattern.bits[position]? = some (.field letter)) :
    position ∈ opcode.keptPositions space ↔ opcode.reserves space (position / 8) = false := by
  have all := List.all_eq_true.mp (accounts_of_mem member space) (.field letter, position)
    (List.mem_zipIdx_iff_getElem?.mpr bit)
  have apart := bne_iff_ne.mp all
  rw [← testBit_maskOf]
  constructor
  · intro shows
    exact Bool.eq_false_iff.mpr fun reserved => apart (shows.trans reserved.symm)
  · intro unreserved
    rw [unreserved] at apart
    exact Bool.eq_true_of_not_eq_false apart

theorem field_of_mem_keptPositions (member : opcode ∈ opcodes)
    (shows : position ∈ opcode.keptPositions space) :
    ∃ letter, opcode.pattern.bits[position]? = some (.field letter) := by
  obtain ⟨field, -, last⟩ := List.mem_flatMap.mp shows
  exact ⟨field.1, (Pattern.mem_positions (bits_length_le member)).mp
    (Pattern.mem_positions_of_mem_last last)⟩

variable {bytes first second : List UInt8} {address : Address} {mode : Mode}
  {instruction : Instruction}

theorem kept_le (opcode : Opcode) (space : Space) : ∀ field ∈ opcode.kept space, field.2 ≤ 32 := by
  intro field member
  rcases List.mem_append.mp member with condition | slots
  · obtain ⟨letter, -, rfl⟩ := List.mem_map.mp condition
    change 4 ≤ 32
    decide
  · obtain ⟨slot, -, inside⟩ := List.mem_flatMap.mp slots
    exact Slot.kept_le slot space field inside

theorem kept_eq_iff : (∀ field ∈ opcode.kept space,
      opcode.pattern.field first field.1 % 2 ^ field.2 =
        opcode.pattern.field second field.1 % 2 ^ field.2) ↔
    ∀ position ∈ opcode.keptPositions space,
      Pattern.bitAt first position = Pattern.bitAt second position := by
  constructor
  · intro same position shows
    obtain ⟨field, member, last⟩ := List.mem_flatMap.mp shows
    exact (Pattern.field_mod_eq_iff _ _ _ _ (kept_le opcode space field member)).mp
      (same field member) position last
  · intro same field member
    refine (Pattern.field_mod_eq_iff _ _ _ _ (kept_le opcode space field member)).mpr ?_
    exact fun position last => same position (List.mem_flatMap.mpr ⟨field, member, last⟩)

theorem bitAt_eq_of_build (built : opcode.build first address mode = .ok instruction)
    (alsoBuilt : opcode.build second address mode = .ok instruction) :
    ∀ position ∈ opcode.keptPositions mode.space,
      Pattern.bitAt first position = Pattern.bitAt second position := by
  obtain ⟨operands, made, rfl⟩ := build_eq_ok_iff.mp built
  obtain ⟨others, alsoMade, same⟩ := build_eq_ok_iff.mp alsoBuilt
  obtain rfl : operands = others := congrArg Instruction.operands same
  refine kept_eq_iff.mp fun field member => ?_
  rcases List.mem_append.mp member with condition | slots
  · obtain ⟨letter, branches, rfl⟩ := List.mem_map.mp condition
    have mnemonics : opcode.mnemonicOf first = opcode.mnemonicOf second :=
      congrArg Instruction.mnemonic same
    simp only [mnemonicOf, Option.mem_toList.mp branches, Mnemonic.branch.injEq] at mnemonics
    exact Condition.ofField_eq_iff.mp mnemonics
  · obtain ⟨slot, present, inside⟩ := List.mem_flatMap.mp slots
    have both := made.mp (fun slot operand left right => And.intro left right) alsoMade
    obtain ⟨operand, left, right⟩ := exists_of_forall₂ both present
    exact Slot.kept_eq_of_operand (Pattern.field_lt _ _) (Pattern.field_lt _ _) left right field
      inside

theorem build_eq_of_bitAt (member : opcode ∈ opcodes)
    (same : ∀ position ∈ opcode.keptPositions mode.space,
      Pattern.bitAt first position = Pattern.bitAt second position) :
    opcode.build first address mode = opcode.build second address mode := by
  have fields := kept_eq_iff.mpr same
  -- The condition of a branch is no operand; it shows in the mnemonic.
  have mnemonics : opcode.mnemonicOf first = opcode.mnemonicOf second := by
    cases condition : opcode.condition with
    | none => simp only [mnemonicOf, condition]
    | some letter =>
      simp only [mnemonicOf, condition]
      exact congrArg Mnemonic.branch
        (Condition.ofField_eq_iff.mpr (fields (letter, 4) (by simp [kept, condition])))
  have assembled : opcode.assemble first address = opcode.assemble second address := by
    funext operands
    simp only [assemble, mnemonics]
  rw [build_eq, build_eq, assembled]
  congr 1
  apply mapM_congr
  intro slot present
  refine Slot.operand_congr (Pattern.field_lt _ _) (Pattern.field_lt _ _) ?_ ?_
  · intro letters lists
    have three := (listsLast_opcodes opcode member slot present letters lists).1
    exact ⟨Pattern.field_lt_of_width three.le first, Pattern.field_lt_of_width three.le second⟩
  · intro field inside
    exact fields field (List.mem_append_right _ (List.mem_flatMap.mpr ⟨slot, present, inside⟩))

theorem isTransfer_of_build (member : opcode ∈ opcodes)
    (built : opcode.build bytes address mode = .ok instruction) :
    instruction.isTransfer = opcode.isTransfer := by
  obtain ⟨operands, -, rfl⟩ := build_eq_ok_iff.mp built
  change (decide (opcode.mnemonicOf bytes = .jmp) || decide (opcode.mnemonicOf bytes = .jsr)) = _
  cases condition : opcode.condition with
  | none => simp only [mnemonicOf, condition, isTransfer]
  | some letter =>
    have branch := mnemonic_of_condition opcode member (by simp [condition])
    simp [mnemonicOf, condition, isTransfer, branch]

theorem reserves_of_build (member : opcode ∈ opcodes)
    (built : opcode.build bytes address mode = .ok instruction) :
    instruction.reserves space position = opcode.reserves space position := by
  have transfers := isTransfer_of_build member built
  have absolute : instruction.operands.any Operand.isAbsolute =
      (opcode.slots.map Slot.kind).any Kind.isAbsolute := by
    rw [← kinds_of_build built, List.any_map]
    exact congrArg _ (funext fun operand => operand.isAbsolute_kind.symm)
  obtain ⟨operands, -, rfl⟩ := build_eq_ok_iff.mp built
  simp only [Instruction.reserves, reserves, transfers, absolute]
  rfl

end Opcode

theorem isWide_of_isTransfer : ∀ opcode ∈ opcodes, opcode.isTransfer = true →
    (opcode.slots.map Slot.kind).any Kind.isAbsolute = true → opcode.isWide = true := by
  decide +kernel

theorem Opcode.not_reserves_of_not_isWide {opcode : Opcode} (member : opcode ∈ opcodes)
    (narrow : opcode.isWide = false) (space : Space) (position : Nat) :
    opcode.reserves space position = false := by
  have short : opcode.slots.any Slot.isLong = false := by
    rw [List.any_eq_false]
    intro slot present long
    have wide : slot.isWide = true := by
      cases slot with
      | dispLong _ _ | absLong _ => rfl
      | _ => cases long
    exact List.any_eq_false.mp narrow slot present wide
  have jumps := isWide_of_isTransfer opcode member
  rw [narrow] at jumps
  cases transfers : opcode.isTransfer with
  | false => simp [reserves, short, transfers]
  | true =>
    cases absolute : (opcode.slots.map Slot.kind).any Kind.isAbsolute with
    | false => simp only [reserves, short, absolute, Bool.false_and, Bool.and_false, Bool.or_false]
    | true => cases jumps transfers absolute

end Encoding

section
variable {first second : List UInt8} {address : Address} {mode : Mode} {opcode : Opcode}
  {instruction : Instruction}

/-- Encodings of one instruction agree outside its reserved bytes. -/
theorem getElem?_eq_of_build (member : opcode ∈ opcodes) (fits : opcode.Fits first mode)
    (alsoFits : opcode.Fits second mode) (built : opcode.build first address mode = .ok instruction)
    (alsoBuilt : opcode.build second address mode = .ok instruction) {position : Nat}
    (inside : position < opcode.pattern.length)
    (unreserved : opcode.reserves mode.space position = false) :
    first[position]? = second[position]? := by
  have whole := separated_opcodes.whole opcode member
  obtain ⟨covered, fixed⟩ := (Pattern.compare_eq_full_iff_bitAt whole).mp fits.2
  obtain ⟨alsoCovered, alsoFixed⟩ := (Pattern.compare_eq_full_iff_bitAt whole).mp alsoFits.2
  refine Pattern.getElem?_eq_of_bitAt (by omega) (by omega) ?_
  rintro index rfl
  have known : index < opcode.pattern.bits.length := by
    rw [whole.1]
    omega
  -- A fixed bit is the same in both, and any other outside reserved bytes shows.
  cases bit : opcode.pattern.bits[index] with
  | fixed value =>
    have stored := List.getElem?_eq_some_iff.mpr ⟨known, bit⟩
    rw [fixed index value stored, alsoFixed index value stored]
  | field letter =>
    have stored := List.getElem?_eq_some_iff.mpr ⟨known, bit⟩
    exact Opcode.bitAt_eq_of_build built alsoBuilt index
      ((Opcode.mem_keptPositions_iff member stored).mpr unreserved)

variable (member : opcode ∈ opcodes) (fits : opcode.Fits first mode)
  (covered : opcode.pattern.length ≤ second.length)
  (same : ∀ position < opcode.pattern.length, opcode.reserves mode.space position = false →
    first[position]? = second[position]?)

include member same

theorem bitAt_eq_of_not_reserves {index : Nat} (known : index < opcode.pattern.bits.length)
    (unreserved : opcode.reserves mode.space (index / 8) = false) :
    Pattern.bitAt first index = Pattern.bitAt second index := by
  rw [(separated_opcodes.whole opcode member).1] at known
  exact Pattern.bitAt_congr (same (index / 8) (by omega) unreserved)

include fits covered in
theorem fits_of_getElem? : opcode.Fits second mode := by
  have whole := separated_opcodes.whole opcode member
  refine ⟨fits.1, (Pattern.compare_eq_full_iff_bitAt whole).mpr ⟨covered, ?_⟩⟩
  intro index value bit
  have known := (List.getElem?_eq_some_iff.mp bit).1
  rw [← bitAt_eq_of_not_reserves member same known (Opcode.not_reserves_of_fixed member _ bit)]
  exact ((Pattern.compare_eq_full_iff_bitAt whole).mp fits.2).2 index value bit

theorem build_eq_of_getElem? : opcode.build first address mode = opcode.build second address mode := by
  refine Opcode.build_eq_of_bitAt member fun index shows => ?_
  obtain ⟨letter, bit⟩ := Opcode.field_of_mem_keptPositions member shows
  exact bitAt_eq_of_not_reserves member same (List.getElem?_eq_some_iff.mp bit).1
    ((Opcode.mem_keptPositions_iff member bit).mp shows)

end

/-- Two encodings give one instruction exactly if they have the same length and
agree outside the reserved bytes. -/
theorem decode_eq_iff_unreserved {first second : List UInt8} {address : Address} {mode : Mode}
    {left right : Instruction} (decoded : decode first address mode = .ok left)
    (alsoDecoded : decode second address mode = .ok right) :
    left = right ↔ left.length = right.length ∧
      ∀ position < left.length, left.reserves mode.space position = false →
        first[position]? = second[position]? := by
  obtain ⟨opcode, member, fits, built⟩ := exists_opcode decoded
  obtain ⟨other, found, otherFits, otherBuilt⟩ := exists_opcode alsoDecoded
  have length := Opcode.length_of_build built
  have reserved (position : Nat) : left.reserves mode.space position =
      opcode.reserves mode.space position := Opcode.reserves_of_build member built
  simp only [reserved, length]
  constructor
  · rintro rfl
    obtain rfl := Opcode.eq_of_build member found built otherBuilt
    exact ⟨(Opcode.length_of_build otherBuilt).symm, fun position inside unreserved =>
      getElem?_eq_of_build member fits otherFits built otherBuilt inside unreserved⟩
  · rintro ⟨lengths, same⟩
    have covered := lengths.le.trans (length_le_of_decode alsoDecoded)
    have alsoFits := fits_of_getElem? member fits covered same
    by_cases unique : opcode = other
    · subst other
      rw [build_eq_of_getElem? member same] at built
      exact Except.ok.inj (built.symm.trans otherBuilt)
    · -- A competing opcode has no reserved bytes, so the encodings are the same.
      have narrow := (separated_opcodes.compete member found alsoFits.2 (by simp [otherFits.2])
        unique).2.2.1
      have taken : first.take left.length = second.take right.length := by
        rw [length, ← lengths]
        apply List.ext_getElem?
        intro position
        by_cases inside : position < opcode.pattern.length
        · rw [List.getElem?_take_of_lt inside, List.getElem?_take_of_lt inside]
          exact same position inside (Opcode.not_reserves_of_not_isWide member narrow _ _)
        · rw [List.getElem?_take_eq_none (by omega), List.getElem?_take_eq_none (by omega)]
      have shorter := decode_take_length decoded
      rw [taken, decode_take_length alsoDecoded] at shorter
      exact (Except.ok.inj shorter).symm

/-- With 16-bit addresses, two bytes of a four byte address are free; the bytes
that remain are not. -/
theorem load_reserves_two_bytes : ∃ first second third : Instruction,
    decode [0x6A, 0x28, 0x12, 0x34, 0x56, 0x78] 0x100 ⟨.h8300h, .normal⟩ = .ok first ∧
      decode [0x6A, 0x28, 0xFF, 0xEE, 0x56, 0x78, 0x00] 0x100 ⟨.h8300h, .normal⟩ = .ok second ∧
      decode [0x6A, 0x28, 0x12, 0x34, 0x57, 0x78] 0x100 ⟨.h8300h, .normal⟩ = .ok third ∧
      first = second ∧ first ≠ third := by
  have load (bytes : List UInt8) (address : Address)
      (read : decodeWith opcodes bytes 0x100 ⟨.h8300h, .normal⟩ =
        .ok ⟨0x100, 6, .mov, some .byte,
          [.absolute address .bits24, .register (.byte 8)], true, false⟩) :=
    (decode_eq_decodeWith bytes 0x100 ⟨.h8300h, .normal⟩).trans read
  have first := load [0x6A, 0x28, 0x12, 0x34, 0x56, 0x78] 0x5678 (by decide +kernel)
  have second := load [0x6A, 0x28, 0xFF, 0xEE, 0x56, 0x78, 0x00] 0x5678 (by decide +kernel)
  have third := load [0x6A, 0x28, 0x12, 0x34, 0x57, 0x78] 0x5778 (by decide +kernel)
  refine ⟨_, _, _, first, second, third, (decode_eq_iff_unreserved first second).mpr ?_, ?_⟩
  · decide
  · intro same
    have agree := ((decode_eq_iff_unreserved first third).mp same).2 4
    exact absurd (agree (by decide) (by decide)) (by decide)

end H8
