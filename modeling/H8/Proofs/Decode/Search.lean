import H8.Proofs.Encoding.Ranking
import H8.Proofs.Encoding.Separation

/-! Decoding as a plain search of the opcode table.

`Reads` says what a table makes of some bytes in terms of membership alone. It
has at most one answer. Both the ranked search of a bucket and a search of the
whole table give that answer, and so does any other order of the table.
-/

set_option autoImplicit false

namespace H8

open Encoding

namespace Encoding.Opcode
variable (opcode : Opcode) (bytes : List UInt8) (address : Address) (mode : Mode)

def Fits : Prop :=
  mode.supports opcode.core = true ∧ opcode.pattern.compare bytes = .full

def Awaits : Prop :=
  mode.supports opcode.core = true ∧ opcode.pattern.compare bytes = .incomplete

instance : Decidable (opcode.Fits bytes mode) := inferInstanceAs (Decidable (_ ∧ _))

instance : Decidable (opcode.Awaits bytes mode) := inferInstanceAs (Decidable (_ ∧ _))

def result? : Option Instruction :=
  if opcode.Fits bytes mode then (opcode.build bytes address mode).toOption else none

def Forbidden : Prop :=
  opcode.Fits bytes mode ∧ opcode.build bytes address mode = .error .illegalOperand

variable {opcode bytes address mode}

theorem result?_eq_some_iff {instruction : Instruction} :
    opcode.result? bytes address mode = some instruction ↔
      opcode.Fits bytes mode ∧ opcode.build bytes address mode = .ok instruction := by
  unfold result?
  split
  · next fits => cases opcode.build bytes address mode <;> simp [fits, Except.toOption]
  · next misfit => simp [misfit]

theorem attempt_of_fits (fits : opcode.Fits bytes mode) :
    opcode.attempt bytes address mode =
      match opcode.build bytes address mode with
      | .ok instruction => .decoded instruction
      | .error .illegalOperand => .illegal
      | .error _ => .rejected := by
  rw [attempt, fits.1, fits.2]
  rfl

theorem attempt_of_not_fits (misfit : ¬ opcode.Fits bytes mode) :
    opcode.attempt bytes address mode =
      if opcode.Awaits bytes mode then .incomplete else .rejected := by
  cases supported : mode.supports opcode.core with
  | false => simp [attempt, Awaits, supported]
  | true =>
    cases compared : opcode.pattern.compare bytes with
    | mismatch => simp [attempt, Awaits, supported, compared]
    | incomplete => simp [attempt, Awaits, supported, compared]
    | full => exact absurd ⟨supported, compared⟩ misfit

theorem not_awaits_of_fits (fits : opcode.Fits bytes mode) : ¬ opcode.Awaits bytes mode := by
  rintro ⟨-, compared⟩
  rw [fits.2] at compared
  cases compared

theorem instruction?_attempt :
    (opcode.attempt bytes address mode).instruction? = opcode.result? bytes address mode := by
  unfold result?
  split
  · next fits =>
    rw [attempt_of_fits fits]
    cases opcode.build bytes address mode with
    | ok instruction => rfl
    | error error => cases error <;> rfl
  · next misfit =>
    rw [attempt_of_not_fits misfit]
    split <;> rfl

theorem attempt_eq_illegal_iff :
    opcode.attempt bytes address mode = .illegal ↔ opcode.Forbidden bytes address mode := by
  unfold Forbidden
  by_cases fits : opcode.Fits bytes mode
  · rw [attempt_of_fits fits]
    cases opcode.build bytes address mode with
    | ok instruction => simp
    | error error => cases error <;> simp [fits]
  · rw [attempt_of_not_fits fits]
    split <;> simp [fits]

theorem attempt_eq_incomplete_iff :
    opcode.attempt bytes address mode = .incomplete ↔ opcode.Awaits bytes mode := by
  by_cases fits : opcode.Fits bytes mode
  · rw [attempt_of_fits fits]
    have settled := not_awaits_of_fits fits
    cases opcode.build bytes address mode with
    | ok instruction => simp [settled]
    | error error => cases error <;> simp [settled]
  · rw [attempt_of_not_fits fits]
    split
    · next awaits => simp [awaits]
    · next settled => simp [settled]

instance : Decidable (opcode.Forbidden bytes address mode) :=
  decidable_of_iff _ attempt_eq_illegal_iff

end Encoding.Opcode

/-- Decode with a table of opcodes, ranked by first byte as the index does it. -/
def decodeWith (table : List Opcode) (bytes : List UInt8) (address : Address) (mode : Mode) :
    Except DecodeError Instruction :=
  match bytes with
  | [] => .error .truncated
  | first :: _ =>
    Attempt.outcome ((rank (table.filter fun opcode => opcode.pattern.admitsFirst first)).map
      fun opcode => opcode.attempt bytes address mode)

theorem decode_eq_decodeWith (bytes : List UInt8) (address : Address) (mode : Mode) :
    decode bytes address mode = decodeWith opcodes bytes address mode := by
  cases bytes with
  | nil => rfl
  | cons first rest =>
    simp only [decode, decodeWith, candidates_eq]
    rfl

/-- Search a table for the most specific opcode that gives an instruction,
looking at every opcode. If there is none, the gravest obstacle is the answer. -/
def search (table : List Opcode) (bytes : List UInt8) (address : Address) (mode : Mode) :
    Except DecodeError Instruction :=
  match (table.filter fun opcode => (opcode.result? bytes address mode).isSome).maxOn?
      fun opcode => opcode.pattern.fixedBits with
  | some opcode => opcode.build bytes address mode
  | none =>
    if table.any fun opcode => opcode.Forbidden bytes address mode then .error .illegalOperand
    else if bytes.isEmpty || table.any fun opcode => opcode.Awaits bytes mode then .error .truncated
    else .error .unknownOpcode

inductive Reads (table : List Opcode) (bytes : List UInt8) (address : Address) (mode : Mode) :
    Except DecodeError Instruction → Prop where
  | decoded {opcode : Opcode} {instruction : Instruction} (member : opcode ∈ table)
      (built : opcode.result? bytes address mode = some instruction)
      (best : ∀ other ∈ table, (other.result? bytes address mode).isSome = true →
        other = opcode ∨ other.pattern.fixedBits < opcode.pattern.fixedBits) :
      Reads table bytes address mode (.ok instruction)
  | illegal {opcode : Opcode} (member : opcode ∈ table)
      (forbidden : opcode.Forbidden bytes address mode)
      (unbuilt : ∀ other ∈ table, other.result? bytes address mode = none) :
      Reads table bytes address mode (.error .illegalOperand)
  | truncated (cut : bytes = [] ∨ ∃ opcode ∈ table, opcode.Awaits bytes mode)
      (unbuilt : ∀ other ∈ table, other.result? bytes address mode = none)
      (allowed : ∀ other ∈ table, ¬ other.Forbidden bytes address mode) :
      Reads table bytes address mode (.error .truncated)
  | unknown (present : bytes ≠ []) (settled : ∀ other ∈ table, ¬ other.Awaits bytes mode)
      (unbuilt : ∀ other ∈ table, other.result? bytes address mode = none)
      (allowed : ∀ other ∈ table, ¬ other.Forbidden bytes address mode) :
      Reads table bytes address mode (.error .unknownOpcode)

namespace Reads
variable {table : List Opcode} {bytes : List UInt8} {address : Address} {mode : Mode}

theorem functional {first second : Except DecodeError Instruction}
    (left : Reads table bytes address mode first) (right : Reads table bytes address mode second) :
    first = second := by
  cases left with
  | decoded member built best =>
    cases right with
    | decoded otherMember otherBuilt otherBest =>
      -- Each of two best opcodes would have more fixed bits than the other.
      rcases best _ otherMember (by simp [otherBuilt]) with same | fewer
      · subst same
        rw [built] at otherBuilt
        exact congrArg Except.ok (Option.some.inj otherBuilt)
      · rcases otherBest _ member (by simp [built]) with same | more
        · subst same
          omega
        · omega
    | illegal _ _ unbuilt | truncated _ unbuilt _ | unknown _ _ unbuilt _ =>
      simp [unbuilt _ member] at built
  | illegal member forbidden unbuilt =>
    cases right with
    | decoded otherMember otherBuilt _ => simp [unbuilt _ otherMember] at otherBuilt
    | illegal => rfl
    | truncated _ _ allowed | unknown _ _ _ allowed => exact absurd forbidden (allowed _ member)
  | truncated cut unbuilt allowed =>
    cases right with
    | decoded member built _ => simp [unbuilt _ member] at built
    | illegal member forbidden _ => exact absurd forbidden (allowed _ member)
    | truncated => rfl
    | unknown present settled _ _ =>
      rcases cut with empty | ⟨opcode, member, awaits⟩
      · exact absurd empty present
      · exact absurd awaits (settled opcode member)
  | unknown present settled unbuilt allowed =>
    cases right with
    | decoded member built _ => simp [unbuilt _ member] at built
    | illegal member forbidden _ => exact absurd forbidden (allowed _ member)
    | truncated cut _ _ =>
      rcases cut with empty | ⟨opcode, member, awaits⟩
      · exact absurd empty present
      · exact absurd awaits (settled opcode member)
    | unknown => rfl

theorem perm {other : List Opcode} (same : other.Perm table)
    {result : Except DecodeError Instruction} (reads : Reads table bytes address mode result) :
    Reads other bytes address mode result := by
  cases reads with
  | decoded member built best =>
    exact .decoded (same.mem_iff.mpr member) built
      fun opcode found => best opcode (same.mem_iff.mp found)
  | illegal member forbidden unbuilt =>
    exact .illegal (same.mem_iff.mpr member) forbidden
      fun opcode found => unbuilt opcode (same.mem_iff.mp found)
  | truncated cut unbuilt allowed =>
    refine .truncated (cut.imp_right ?_) (fun opcode found => unbuilt opcode (same.mem_iff.mp found))
      fun opcode found => allowed opcode (same.mem_iff.mp found)
    rintro ⟨opcode, member, awaits⟩
    exact ⟨opcode, same.mem_iff.mpr member, awaits⟩
  | unknown present settled unbuilt allowed =>
    exact .unknown present (fun opcode found => settled opcode (same.mem_iff.mp found))
      (fun opcode found => unbuilt opcode (same.mem_iff.mp found))
      fun opcode found => allowed opcode (same.mem_iff.mp found)

end Reads

section
variable {table : List Opcode} {bytes : List UInt8} {address : Address} {mode : Mode}

theorem Encoding.Opcode.fits_of_result? {opcode : Opcode} {instruction : Instruction}
    (built : opcode.result? bytes address mode = some instruction) : opcode.Fits bytes mode :=
  (Opcode.result?_eq_some_iff.mp built).1

theorem Encoding.Opcode.fits_of_isSome {opcode : Opcode}
    (built : (opcode.result? bytes address mode).isSome = true) : opcode.Fits bytes mode := by
  obtain ⟨instruction, built⟩ := Option.isSome_iff_exists.mp built
  exact Opcode.fits_of_result? built

/-- Opcodes of a separated table that fit the same bytes are told apart by
their fixed bits. -/
theorem Encoding.Separated.eq_of_fixedBits (separated : Separated table) {first second : Opcode}
    (left : first ∈ table) (right : second ∈ table) (firstFits : first.Fits bytes mode)
    (secondFits : second.Fits bytes mode)
    (same : first.pattern.fixedBits = second.pattern.fixedBits) : first = second := by
  apply Classical.byContradiction
  intro different
  have agree : second.pattern.compare bytes ≠ .mismatch := by simp [secondFits.2]
  exact (separated.compete left right firstFits.2 agree different).2.1 same

theorem Encoding.Separated.admitsFirst (separated : Separated table) {opcode : Opcode}
    (member : opcode ∈ table) {first : UInt8} {rest : List UInt8}
    (agree : opcode.pattern.compare (first :: rest) ≠ .mismatch) :
    opcode.pattern.admitsFirst first = true := by
  rw [Pattern.compare_eq (separated.whole opcode member), bytesBits_cons,
    Pattern.agrees_append] at agree
  cases admitted : Pattern.agrees opcode.pattern.bits (byteBits first) with
  | true => exact admitted
  | false => simp [admitted] at agree

theorem mem_ranked_iff {first : UInt8} {opcode : Opcode} :
    opcode ∈ rank (table.filter fun opcode => opcode.pattern.admitsFirst first) ↔
      opcode ∈ table ∧ opcode.pattern.admitsFirst first = true := by
  rw [(perm_rank _).mem_iff, List.mem_filter]

theorem best_of_ranked {ranked : List Opcode} (order : Ranked ranked) {instruction : Instruction}
    (found : ranked.findSome? (fun opcode => opcode.result? bytes address mode) = some instruction) :
    ∃ opcode ∈ ranked, opcode.result? bytes address mode = some instruction ∧
      ∀ other ∈ ranked, (other.result? bytes address mode).isSome = true →
        other.pattern.fixedBits ≤ opcode.pattern.fixedBits := by
  obtain ⟨earlier, opcode, later, rfl, built, unbuilt⟩ := List.findSome?_eq_some_iff.mp found
  refine ⟨opcode, by simp, built, fun other member gives => ?_⟩
  -- What comes before the found opcode gives nothing, what follows ranks lower.
  rcases List.mem_append.mp member with before | after
  · simp [unbuilt other before] at gives
  · rcases List.mem_cons.mp after with same | after
    · exact Nat.le_of_eq (same ▸ rfl)
    · have tail := (List.pairwise_append.mp order).2.1
      exact (List.pairwise_cons.mp tail).1 other after

theorem exists_ranked_iff (separated : Separated table) (first : UInt8) (rest : List UInt8)
    {holds : Opcode → Prop}
    (agree : ∀ opcode, holds opcode → opcode.pattern.compare (first :: rest) ≠ .mismatch) :
    (∃ opcode ∈ rank (table.filter fun opcode => opcode.pattern.admitsFirst first), holds opcode) ↔
      ∃ opcode ∈ table, holds opcode := by
  constructor
  · rintro ⟨opcode, inside, found⟩
    exact ⟨opcode, (mem_ranked_iff.mp inside).1, found⟩
  · rintro ⟨opcode, member, found⟩
    exact ⟨opcode, mem_ranked_iff.mpr
      ⟨member, separated.admitsFirst member (agree opcode found)⟩, found⟩

theorem Reads.of_best (separated : Separated table) {opcode : Opcode} {instruction : Instruction}
    (member : opcode ∈ table) (built : opcode.result? bytes address mode = some instruction)
    (most : ∀ other ∈ table, (other.result? bytes address mode).isSome = true →
      other.pattern.fixedBits ≤ opcode.pattern.fixedBits) :
    Reads table bytes address mode (.ok instruction) := by
  refine .decoded member built fun other found gives => ?_
  by_cases same : other.pattern.fixedBits = opcode.pattern.fixedBits
  · exact .inl (separated.eq_of_fixedBits found member (Opcode.fits_of_isSome gives)
      (Opcode.fits_of_result? built) same)
  · exact .inr (Nat.lt_of_le_of_ne (most other found gives) same)

theorem Reads.of_unbuilt {illegal cut : Prop} [Decidable illegal] [Decidable cut]
    (unbuilt : ∀ opcode ∈ table, opcode.result? bytes address mode = none)
    (illegal_iff : illegal ↔ ∃ opcode ∈ table, opcode.Forbidden bytes address mode)
    (cut_iff : cut ↔ bytes = [] ∨ ∃ opcode ∈ table, opcode.Awaits bytes mode) :
    Reads table bytes address mode (if illegal then .error .illegalOperand
      else if cut then .error .truncated else .error .unknownOpcode) := by
  split
  · next forbidden =>
    obtain ⟨opcode, member, forbidden⟩ := illegal_iff.mp forbidden
    exact .illegal member forbidden unbuilt
  · next legal =>
    have allowed (opcode : Opcode) (member : opcode ∈ table) :
        ¬ opcode.Forbidden bytes address mode :=
      fun forbidden => legal (illegal_iff.mpr ⟨opcode, member, forbidden⟩)
    split
    · next short => exact .truncated (cut_iff.mp short) unbuilt allowed
    · next uncut =>
      obtain ⟨present, settled⟩ := not_or.mp (mt cut_iff.mpr uncut)
      exact .unknown present (fun opcode member awaits => settled ⟨opcode, member, awaits⟩) unbuilt
        allowed

theorem Reads.nil (separated : Separated table) :
    Reads table [] address mode (.error .truncated) := by
  have misfit (opcode : Opcode) (member : opcode ∈ table) : ¬ opcode.Fits [] mode := by
    rintro ⟨-, full⟩
    have covered := ((Pattern.compare_eq_full_iff (separated.whole opcode member)).mp full).2
    have positive := (separated.whole opcode member).2.1
    simp only [List.length_nil] at covered
    omega
  refine .truncated (.inl rfl) (fun opcode member => if_neg (misfit opcode member)) ?_
  exact fun opcode member forbidden => misfit opcode member forbidden.1

theorem reads_decodeWith (separated : Separated table) (bytes : List UInt8) (address : Address)
    (mode : Mode) : Reads table bytes address mode (decodeWith table bytes address mode) := by
  cases bytes with
  | nil => exact .nil separated
  | cons first rest =>
    -- An opcode that the bucket leaves out mismatches, so the bucket decides.
    have kept {opcode : Opcode} (member : opcode ∈ table)
        (gives : (opcode.result? (first :: rest) address mode).isSome = true) :
        opcode ∈ rank (table.filter fun opcode => opcode.pattern.admitsFirst first) := by
      have agree : opcode.pattern.compare (first :: rest) ≠ .mismatch := by
        simp [(Opcode.fits_of_isSome gives).2]
      exact mem_ranked_iff.mpr ⟨member, separated.admitsFirst member agree⟩
    simp only [decodeWith, Attempt.outcome, List.findSome?_map, Function.comp_def,
      Opcode.instruction?_attempt]
    split
    · next instruction found =>
      obtain ⟨opcode, inside, built, most⟩ := best_of_ranked (ranked_rank _) found
      exact .of_best separated (mem_ranked_iff.mp inside).1 built
        fun other member gives => most other (kept member gives) gives
    · next missing =>
      have unbuilt (opcode : Opcode) (member : opcode ∈ table) :
          opcode.result? (first :: rest) address mode = none := by
        by_contra built
        have inside := kept member (Option.isSome_iff_ne_none.mpr built)
        exact built (List.findSome?_eq_none_iff.mp missing opcode inside)
      simp only [List.contains_iff_mem, List.mem_map, Opcode.attempt_eq_illegal_iff,
        Opcode.attempt_eq_incomplete_iff]
      refine .of_unbuilt unbuilt (exists_ranked_iff separated first rest fun opcode forbidden => ?_)
        ?_
      · simp [forbidden.1.2]
      · rw [exists_ranked_iff separated first rest fun opcode awaits => by simp [awaits.2]]
        simp

theorem reads_search (separated : Separated table) (bytes : List UInt8) (address : Address)
    (mode : Mode) : Reads table bytes address mode (search table bytes address mode) := by
  have inside {opcode : Opcode} (member : opcode ∈ table)
      (gives : (opcode.result? bytes address mode).isSome = true) :
      opcode ∈ table.filter fun opcode => (opcode.result? bytes address mode).isSome :=
    List.mem_filter.mpr ⟨member, gives⟩
  unfold search
  split
  · next opcode found =>
    obtain ⟨member, gives⟩ := List.mem_filter.mp (List.maxOn?_mem found)
    obtain ⟨instruction, built⟩ := Option.isSome_iff_exists.mp gives
    rw [(Opcode.result?_eq_some_iff.mp built).2]
    refine .of_best separated member built fun other otherMember otherGives => ?_
    have most := List.le_apply_get_maxOn?_of_mem (f := fun opcode => opcode.pattern.fixedBits)
      (inside otherMember otherGives)
    simpa only [found, Option.get_some] using most
  · next missing =>
    have unbuilt (opcode : Opcode) (member : opcode ∈ table) :
        opcode.result? bytes address mode = none := by
      by_contra built
      have present := List.isSome_maxOn?_of_mem (f := fun opcode => opcode.pattern.fixedBits)
        (inside member (Option.isSome_iff_ne_none.mpr built))
      simp [missing] at present
    refine .of_unbuilt unbuilt ?_ ?_
    · simp only [List.any_eq_true, decide_eq_true_eq]
    · simp only [List.any_eq_true, decide_eq_true_eq, Bool.or_eq_true, List.isEmpty_iff]

end

theorem reads_decode (bytes : List UInt8) (address : Address) (mode : Mode) :
    Reads opcodes bytes address mode (decode bytes address mode) := by
  rw [decode_eq_decodeWith]
  exact reads_decodeWith separated_opcodes bytes address mode

/-- The index by first byte and the order by specificity lose nothing: decoding
is a search of the whole table, of whose opcodes at most one with any number of
fixed bits gives an instruction, and the order of the table is irrelevant. -/
theorem decode_eq_search (bytes : List UInt8) (address : Address) (mode : Mode) :
    decode bytes address mode = search opcodes bytes address mode ∧
      opcodes.Nodup ∧
      (∀ first ∈ opcodes, ∀ second ∈ opcodes,
        (first.result? bytes address mode).isSome = true →
        (second.result? bytes address mode).isSome = true →
        first.pattern.fixedBits = second.pattern.fixedBits → first = second) ∧
      ∀ table, table.Perm opcodes →
        decodeWith table bytes address mode = decode bytes address mode := by
  refine ⟨?_, separated_opcodes.nodup, ?_, ?_⟩
  · exact (reads_decode bytes address mode).functional (reads_search separated_opcodes ..)
  · intro first left second right firstSome secondSome same
    exact separated_opcodes.eq_of_fixedBits left right (Opcode.fits_of_isSome firstSome)
      (Opcode.fits_of_isSome secondSome) same
  · intro table same
    have read := reads_decodeWith (separated_opcodes.perm same) bytes address mode
    exact (read.perm same.symm).functional (reads_decode bytes address mode)

/-- A pop competes with a move and with a register list, and wins in any order. -/
theorem pop_found_in_any_order :
    decodeWith opcodes.reverse [0x01, 0x00, 0x6D, 0x75] 0x100 ⟨.h8s, .advanced⟩ =
        decode [0x01, 0x00, 0x6D, 0x75] 0x100 ⟨.h8s, .advanced⟩ ∧
      ∀ other ∈ opcodes,
        (other.result? [0x01, 0x00, 0x6D, 0x75] 0x100 ⟨.h8s, .advanced⟩).isSome = true →
        other.pattern.fixedBits = 29 → other.mnemonic = .pop := by
  obtain ⟨-, -, unique, order⟩ := decode_eq_search [0x01, 0x00, 0x6D, 0x75] 0x100 ⟨.h8s, .advanced⟩
  refine ⟨order _ (List.reverse_perm opcodes), fun other member gives bits => ?_⟩
  rw [unique other member (base [.byte 0x01, .byte 0x00, .byte 0x6D, .bits 5 0b01110, .field 'd' 3]
    .pop (some .long) [.reg32 'd']) (by decide +kernel) gives (by decide +kernel) bits]
  rfl

end H8
