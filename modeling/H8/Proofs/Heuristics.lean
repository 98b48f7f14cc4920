import H8.Heuristics
import H8.Proofs.Effects

/-! Quick tests for returns and jumps agree with full decoding.

A return has one of two encodings, which have no fields and share their first
bytes with no others. A jump to a known place names it in its only operand.
-/

set_option autoImplicit false

namespace H8

open Encoding

namespace Encoding

def Pattern.exactly (sequence : List UInt8) : Pattern := ⟨(bytesBits sequence).map .fixed⟩

theorem agrees_fixed_iff {values data : List Bool} :
    Pattern.agrees (values.map .fixed) data = true ∧ values.length ≤ data.length ↔ values <+: data := by
  induction values generalizing data with
  | nil => simp
  | cons value values ih =>
    cases data with
    | nil => simp
    | cons datum data =>
      rw [List.map_cons, Pattern.agrees_cons, List.cons_prefix_cons, ← ih]
      simp [Pattern.admits, and_assoc]

theorem bytesBits_prefix_iff {sequence bytes : List UInt8} :
    bytesBits sequence <+: bytesBits bytes ↔ sequence <+: bytes := by
  induction sequence generalizing bytes with
  | nil => simp
  | cons byte sequence ih =>
    cases bytes with
    | nil => simp [byteBits]
    | cons other bytes =>
      rw [List.cons_prefix_cons, ← ih, bytesBits_cons, bytesBits_cons]
      constructor
      · rintro ⟨rest, same⟩
        rw [List.append_assoc] at same
        obtain ⟨bits, later⟩ := List.append_inj same rfl
        exact ⟨byteBits_injective bits, rest, later⟩
      · rintro ⟨rfl, rest, same⟩
        exact ⟨rest, by rw [List.append_assoc, same]⟩

theorem Pattern.compare_exactly {sequence bytes : List UInt8} {longest : Nat}
    (whole : (exactly sequence).IsWhole longest) :
    (exactly sequence).compare bytes = .full ↔ sequence <+: bytes := by
  have size : (exactly sequence).length = sequence.length := by
    simp [length, exactly]
  rw [compare_eq_full_iff whole, ← bytesBits_prefix_iff, ← agrees_fixed_iff, size, length_bytesBits,
    length_bytesBits, Nat.mul_le_mul_left_iff (by decide)]
  rfl

end Encoding

theorem pattern_of_return : ∀ opcode ∈ opcodes, opcode.mnemonic = .rts ∨ opcode.mnemonic = .rte →
    ∃ sequence ∈ returnSequences, opcode.pattern = .exactly sequence := by
  decide +kernel

/-- Each return sequence encodes a return on both cores, and no other encoding
begins with the same byte. -/
theorem exists_return : ∀ sequence ∈ returnSequences, ∃ opcode ∈ opcodes,
    opcode.pattern = .exactly sequence ∧ (opcode.mnemonic = .rts ∨ opcode.mnemonic = .rte) ∧
      opcode.condition = none ∧ opcode.slots = [] ∧ opcode.core = .h8300h ∧
      ∀ first ∈ sequence.head?, ∀ other ∈ opcodes,
        other.pattern.admitsFirst first = true → other = opcode := by
  decide +kernel

section
variable {bytes : List UInt8} {address : Address} {mode : Mode} {instruction : Instruction}

theorem decode_of_fits {opcode : Opcode} {first : UInt8} {rest : List UInt8} (member : opcode ∈ opcodes)
    (fits : opcode.Fits (first :: rest) mode)
    (built : opcode.build (first :: rest) address mode = .ok instruction)
    (alone : ∀ other ∈ opcodes, other.pattern.admitsFirst first = true → other = opcode) :
    decode (first :: rest) address mode = .ok instruction := by
  refine (reads_decode ..).functional
    (.decoded member (Opcode.result?_eq_some_iff.mpr ⟨fits, built⟩) fun other found gives => .inl ?_)
  have agree : other.pattern.compare (first :: rest) ≠ .mismatch := by
    simp [(Opcode.fits_of_isSome gives).2]
  exact alone other found (separated_opcodes.admitsFirst found agree)

theorem Instruction.edges_eq_back_iff : instruction.edges = [.back] ↔
    instruction.mnemonic = .rts ∨ instruction.mnemonic = .rte := by
  unfold edges
  cases instruction.mnemonic with
  | branch condition => cases condition <;> cases instruction.target? <;> simp
  | _ => simp

theorem decode_of_returnSequence {sequence : List UInt8} (listed : sequence ∈ returnSequences)
    (starts : sequence <+: bytes) (address : Address) (mode : Mode) :
    ∃ instruction, decode bytes address mode = .ok instruction ∧ instruction.edges = [.back] := by
  obtain ⟨opcode, member, pattern, returns, unconditional, slots, core, alone⟩ :=
    exists_return sequence listed
  have whole := separated_opcodes.whole opcode member
  have fits : opcode.Fits bytes mode := by
    constructor
    · rw [core]
      rfl
    · rw [pattern] at whole ⊢
      exact (Pattern.compare_exactly whole).mpr starts
  have built : opcode.build bytes address mode = .ok (opcode.assemble bytes address []) :=
    Opcode.build_eq_ok_iff.mpr ⟨[], by rw [slots]; exact .nil, rfl⟩
  refine ⟨opcode.assemble bytes address [], ?_, Instruction.edges_eq_back_iff.mpr ?_⟩
  · cases sequence with
    | nil => simp [returnSequences] at listed
    | cons first later =>
      obtain ⟨rest, rfl⟩ := starts
      exact decode_of_fits member fits built (alone first rfl)
  · simpa only [Opcode.assemble, Opcode.mnemonicOf, unconditional] using returns

theorem returnSequence_of_decode (decoded : decode bytes address mode = .ok instruction)
    (returns : instruction.edges = [.back]) : ∃ sequence ∈ returnSequences, sequence <+: bytes := by
  have mnemonic := Instruction.edges_eq_back_iff.mp returns
  obtain ⟨opcode, member, fits, built⟩ := exists_opcode decoded
  have plain : opcode.mnemonic = instruction.mnemonic := by
    apply Opcode.mnemonic_of_build built
    rcases mnemonic with same | same <;> simp [same]
  obtain ⟨sequence, listed, pattern⟩ := pattern_of_return opcode member (plain ▸ mnemonic)
  have whole := separated_opcodes.whole opcode member
  have full := fits.2
  rw [pattern] at whole full
  exact ⟨sequence, listed, (Pattern.compare_exactly whole).mp full⟩

/-- A jump knows its target from an address and not from a distance. -/
theorem kinds_of_jump : ∀ opcode ∈ opcodes, opcode.mnemonic = .jmp →
    opcode.slots.map Slot.kind ∈ [[Kind.indirect], [.absolute .bits24], [.vector]] := by
  decide +kernel

theorem operands_of_known_jump (decoded : decode bytes address mode = .ok instruction)
    (jumps : instruction.mnemonic = .jmp) {target : Address}
    (known : instruction.target? = some target) :
    ∃ field rest, instruction.operands = .absolute target field :: rest := by
  obtain ⟨opcode, member, -, built⟩ := exists_opcode decoded
  have listed := kinds_of_jump opcode member
    ((Opcode.mnemonic_of_build built (by simp [jumps])).trans jumps)
  rw [← Opcode.kinds_of_build built] at listed
  unfold Instruction.target? at known
  split at known
  · next given => simp [given, Operand.kind] at listed
  · next first field rest given =>
    obtain rfl := Option.some.inj known
    exact ⟨field, rest, given⟩
  · cases known

theorem Instruction.edges_eq_jump_iff {target : Option Address} : instruction.edges = [.jump target] ↔
    (instruction.mnemonic = .jmp ∨ instruction.mnemonic = .branch .always) ∧
      instruction.target? = target := by
  unfold edges
  cases instruction.mnemonic with
  | branch condition => cases condition <;> cases instruction.target? <;> simp
  | _ => simp

theorem jumpTarget?_eq_some_iff {view : View} {target : Address} :
    jumpTarget? view mode address = some target ↔ ∃ instruction,
      view.decodeAt address mode = .ok instruction ∧ instruction.edges = [.jump (some target)] := by
  unfold jumpTarget?
  cases decoded : view.decodeAt address mode with
  | error error => simp
  | ok instruction =>
    simp only [Except.ok.injEq, exists_eq_left', Instruction.edges_eq_jump_iff]
    constructor
    · intro found
      split at found
      · next jumps given =>
        cases found
        exact ⟨.inl jumps, by simp [Instruction.target?, given]⟩
      · next branches given =>
        cases found
        exact ⟨.inr branches, by simp [Instruction.target?, given]⟩
      · cases found
    · have bytes := View.decode_of_decodeAt decoded
      rintro ⟨jumps | branches, known⟩
      · obtain ⟨field, rest, given⟩ := operands_of_known_jump bytes jumps known
        simp [jumps, given]
      · obtain ⟨other, displacement, field, given⟩ := operands_of_branch bytes branches
        simpa [branches, given, Instruction.target?] using known

end

/-- The first two bytes tell whether there is a return, and the operands of the
instruction at an address tell whether there is a jump to a known target: in both
cases exactly if control leaves the decoded instruction in that way. -/
theorem quick_tests_agree :
    (∀ (bytes : List UInt8) (address : Address) (mode : Mode) (view : View),
      isReturnSequence bytes = true ↔ ∃ instruction, decode bytes address mode = .ok instruction ∧
        (instruction.effects view mode).edges = [.back]) ∧
    ∀ (view : View) (mode : Mode) (address target : Address),
      jumpTarget? view mode address = some target ↔ ∃ instruction,
        view.decodeAt address mode = .ok instruction ∧
          (instruction.effects view mode).edges = [.jump (some target)] := by
  refine ⟨fun bytes address mode view => ?_, fun view mode address target => jumpTarget?_eq_some_iff⟩
  simp only [isReturnSequence, List.any_eq_true, List.isPrefixOf_iff_prefix]
  constructor
  · rintro ⟨sequence, listed, starts⟩
    exact decode_of_returnSequence listed starts address mode
  · rintro ⟨instruction, decoded, returns⟩
    exact returnSequence_of_decode decoded returns

end H8
