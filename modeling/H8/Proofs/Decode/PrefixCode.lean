import H8.Database
import H8.Proofs.Decode.Build
import H8.Proofs.Decode.Search
import H8.Proofs.Encoding.Fields
import H8.Proofs.Memory

/-! Encodings form a prefix code that is read online.

Once some opcode fits, none waits for more, so a verdict other than truncation
is final. A truncated input can be completed: the missing bits of an opcode
that still waits are filled so that its operands exist.
-/

set_option autoImplicit false

namespace H8

open Encoding

namespace Encoding.Opcode
variable {opcode : Opcode} {longest : Nat} {bytes : List UInt8} {mode : Mode}

theorem agrees_of_fits (whole : opcode.pattern.IsWhole longest) (fits : opcode.Fits bytes mode) :
    Pattern.agrees opcode.pattern.bits (bytesBits bytes) = true :=
  ((Pattern.compare_eq_full_iff whole).mp fits.2).1

theorem length_le_of_fits (whole : opcode.pattern.IsWhole longest)
    (fits : opcode.Fits bytes mode) : opcode.pattern.length ≤ bytes.length :=
  ((Pattern.compare_eq_full_iff whole).mp fits.2).2

theorem fits_append (whole : opcode.pattern.IsWhole longest) (fits : opcode.Fits bytes mode)
    (suffix : List UInt8) : opcode.Fits (bytes ++ suffix) mode := by
  have covered := length_le_of_fits whole fits
  refine ⟨fits.1, (Pattern.compare_eq_full_iff whole).mpr ⟨?_, ?_⟩⟩
  · have none_left : opcode.pattern.bits.drop (bytesBits bytes).length = [] := by
      rw [List.drop_eq_nil_iff, whole.1, length_bytesBits]
      omega
    rw [bytesBits_append, Pattern.agrees_append, agrees_of_fits whole fits, none_left,
      Pattern.agrees_nil]
    rfl
  · rw [List.length_append]
    omega

theorem agrees_left {suffix : List UInt8}
    (agree : Pattern.agrees opcode.pattern.bits (bytesBits (bytes ++ suffix)) = true) :
    Pattern.agrees opcode.pattern.bits (bytesBits bytes) = true := by
  rw [bytesBits_append, Pattern.agrees_append, Bool.and_eq_true] at agree
  exact agree.1

theorem agrees_take_of_fits (whole : opcode.pattern.IsWhole longest)
    (fits : opcode.Fits bytes mode) (count : Nat) :
    Pattern.agrees opcode.pattern.bits (bytesBits (bytes.take count)) = true := by
  have agree := agrees_of_fits whole fits
  rw [← List.take_append_drop count bytes] at agree
  exact agrees_left agree

theorem awaits_left (whole : opcode.pattern.IsWhole longest) {suffix : List UInt8}
    (awaits : opcode.Awaits (bytes ++ suffix) mode) : opcode.Awaits bytes mode := by
  obtain ⟨agree, short⟩ := (Pattern.compare_eq_incomplete_iff whole).mp awaits.2
  rw [List.length_append] at short
  exact ⟨awaits.1, (Pattern.compare_eq_incomplete_iff whole).mpr ⟨agrees_left agree, by omega⟩⟩

theorem fits_left (whole : opcode.pattern.IsWhole longest) {suffix : List UInt8}
    (fits : opcode.Fits (bytes ++ suffix) mode) :
    opcode.Fits bytes mode ∨ opcode.Awaits bytes mode := by
  have agree := agrees_left (agrees_of_fits whole fits)
  by_cases short : bytes.length < opcode.pattern.length
  · exact .inr ⟨fits.1, (Pattern.compare_eq_incomplete_iff whole).mpr ⟨agree, short⟩⟩
  · exact .inl ⟨fits.1, (Pattern.compare_eq_full_iff whole).mpr ⟨agree, Nat.le_of_not_lt short⟩⟩

theorem build_append (whole : opcode.pattern.IsWhole longest) (fits : opcode.Fits bytes mode)
    (suffix : List UInt8) (address : Address) :
    opcode.build (bytes ++ suffix) address mode = opcode.build bytes address mode :=
  build_congr (Pattern.field_append whole (length_le_of_fits whole fits) suffix)

end Encoding.Opcode

theorem Reads.congr {table : List Opcode} {first second : List UInt8} {address : Address}
    {mode : Mode} (present : first ≠ []) (stillPresent : second ≠ [])
    (results : ∀ opcode ∈ table,
      opcode.result? second address mode = opcode.result? first address mode)
    (forbidden : ∀ opcode ∈ table,
      opcode.Forbidden second address mode ↔ opcode.Forbidden first address mode)
    (awaits : ∀ opcode ∈ table, opcode.Awaits second mode ↔ opcode.Awaits first mode)
    {result : Except DecodeError Instruction} (reads : Reads table first address mode result) :
    Reads table second address mode result := by
  cases reads with
  | decoded member built best =>
    refine .decoded member ((results _ member).trans built) fun other found gives => ?_
    exact best other found (results other found ▸ gives)
  | illegal member illegal unbuilt =>
    exact .illegal member ((forbidden _ member).mpr illegal)
      fun other found => (results other found).trans (unbuilt other found)
  | truncated cut unbuilt allowed =>
    refine .truncated ?_ (fun other found => (results other found).trans (unbuilt other found))
      fun other found illegal => allowed other found ((forbidden other found).mp illegal)
    rcases cut with empty | ⟨opcode, member, waiting⟩
    · exact absurd empty present
    · exact .inr ⟨opcode, member, (awaits opcode member).mpr waiting⟩
  | unknown _ settled unbuilt allowed =>
    exact .unknown stillPresent
      (fun other found waiting => settled other found ((awaits other found).mp waiting))
      (fun other found => (results other found).trans (unbuilt other found))
      fun other found illegal => allowed other found ((forbidden other found).mp illegal)

/-- Bytes for which no opcode waits are read the same whatever follows them. -/
theorem Reads.append {table : List Opcode} (separated : Separated table) {bytes : List UInt8}
    {address : Address} {mode : Mode} (present : bytes ≠ [])
    (settled : ∀ opcode ∈ table, ¬ opcode.Awaits bytes mode) (suffix : List UInt8)
    {result : Except DecodeError Instruction} (reads : Reads table bytes address mode result) :
    Reads table (bytes ++ suffix) address mode result := by
  -- Nothing waits, so what fits the longer input fits already.
  have fits (opcode : Opcode) (member : opcode ∈ table) :
      opcode.Fits (bytes ++ suffix) mode ↔ opcode.Fits bytes mode := by
    have whole := separated.whole opcode member
    constructor
    · exact fun fits => (Opcode.fits_left whole fits).resolve_right (settled opcode member)
    · exact fun fits => Opcode.fits_append whole fits suffix
  refine reads.congr present (by simp [present]) (fun opcode member => ?_)
    (fun opcode member => ?_) (fun opcode member => ?_)
  · unfold Opcode.result?
    simp only [fits opcode member]
    split
    · next fit => rw [Opcode.build_append (separated.whole opcode member) fit]
    · rfl
  · unfold Opcode.Forbidden
    rw [fits opcode member]
    refine and_congr_right fun fit => ?_
    rw [Opcode.build_append (separated.whole opcode member) fit]
  · have left := settled opcode member
    exact iff_of_false (fun waiting =>
      left (Opcode.awaits_left (separated.whole opcode member) waiting)) left

theorem Encoding.Separated.settled {table : List Opcode} (separated : Separated table)
    {bytes : List UInt8} {mode : Mode} {opcode : Opcode} (member : opcode ∈ table)
    (fits : opcode.Fits bytes mode) : ∀ other ∈ table, ¬ other.Awaits bytes mode :=
  fun _ found awaits => separated.not_incomplete member found fits.2 awaits.2

theorem decode_append_of_settled {bytes : List UInt8} {mode : Mode} (present : bytes ≠ [])
    (settled : ∀ opcode ∈ opcodes, ¬ opcode.Awaits bytes mode) (address : Address)
    (suffix : List UInt8) : decode (bytes ++ suffix) address mode = decode bytes address mode := by
  have reads := reads_decode bytes address mode
  have longer := reads_decode (bytes ++ suffix) address mode
  exact longer.functional (reads.append separated_opcodes present settled suffix)

theorem decode_append {bytes : List UInt8} {address : Address} {mode : Mode}
    (final : decode bytes address mode ≠ .error .truncated) (suffix : List UInt8) :
    decode (bytes ++ suffix) address mode = decode bytes address mode := by
  have present : bytes ≠ [] := by
    rintro rfl
    exact final rfl
  refine decode_append_of_settled present ?_ address suffix
  have reads := reads_decode bytes address mode
  generalize decode bytes address mode = result at reads final
  cases reads with
  | decoded member built _ =>
    exact separated_opcodes.settled member (Opcode.fits_of_result? built)
  | illegal member forbidden _ => exact separated_opcodes.settled member forbidden.1
  | truncated => exact absurd rfl final
  | unknown _ settled _ _ => exact settled

theorem exists_opcode {bytes : List UInt8} {address : Address} {mode : Mode}
    {instruction : Instruction} (decoded : decode bytes address mode = .ok instruction) :
    ∃ opcode ∈ opcodes, opcode.Fits bytes mode ∧
      opcode.build bytes address mode = .ok instruction := by
  have reads := reads_decode bytes address mode
  rw [decoded] at reads
  cases reads with
  | decoded member built _ => exact ⟨_, member, Opcode.result?_eq_some_iff.mp built⟩

theorem length_le_of_decode {bytes : List UInt8} {address : Address} {mode : Mode}
    {instruction : Instruction} (decoded : decode bytes address mode = .ok instruction) :
    instruction.length ≤ bytes.length := by
  obtain ⟨opcode, member, fits, built⟩ := exists_opcode decoded
  rw [Opcode.length_of_build built]
  exact Opcode.length_le_of_fits (separated_opcodes.whole opcode member) fits

theorem address_of_decode {bytes : List UInt8} {address : Address} {mode : Mode}
    {instruction : Instruction} (decoded : decode bytes address mode = .ok instruction) :
    instruction.address = address := by
  obtain ⟨opcode, -, -, built⟩ := exists_opcode decoded
  obtain ⟨operands, -, rfl⟩ := Opcode.build_eq_ok_iff.mp built
  rfl

theorem length_pos_of_decode {bytes : List UInt8} {address : Address} {mode : Mode}
    {instruction : Instruction} (decoded : decode bytes address mode = .ok instruction) :
    0 < instruction.length := by
  obtain ⟨opcode, member, -, built⟩ := exists_opcode decoded
  rw [Opcode.length_of_build built]
  exact (separated_opcodes.whole opcode member).2.1

theorem decode_take_length {bytes : List UInt8} {address : Address} {mode : Mode}
    {instruction : Instruction} (decoded : decode bytes address mode = .ok instruction) :
    decode (bytes.take instruction.length) address mode = .ok instruction := by
  obtain ⟨opcode, member, fits, built⟩ := exists_opcode decoded
  have whole := separated_opcodes.whole opcode member
  rw [Opcode.length_of_build built]
  have covered := Opcode.length_le_of_fits whole fits
  have length : (bytes.take opcode.pattern.length).length = opcode.pattern.length := by
    rw [List.length_take, Nat.min_eq_left covered]
  have fitsTaken : opcode.Fits (bytes.take opcode.pattern.length) mode :=
    ⟨fits.1, (Pattern.compare_eq_full_iff whole).mpr
      ⟨Opcode.agrees_take_of_fits whole fits _, length.ge⟩⟩
  have present : bytes.take opcode.pattern.length ≠ [] :=
    List.ne_nil_of_length_pos (length.symm ▸ whole.2.1)
  have extended := decode_append_of_settled present
    (separated_opcodes.settled member fitsTaken) address (bytes.drop opcode.pattern.length)
  rw [← extended, List.take_append_drop, decoded]

theorem decode_take {bytes : List UInt8} {address : Address} {mode : Mode}
    {instruction : Instruction} (decoded : decode bytes address mode = .ok instruction)
    {count : Nat} (short : count < instruction.length) :
    decode (bytes.take count) address mode = .error .truncated := by
  obtain ⟨opcode, member, fits, built⟩ := exists_opcode decoded
  have whole := separated_opcodes.whole opcode member
  have awaits : opcode.Awaits (bytes.take count) mode := by
    refine ⟨fits.1, (Pattern.compare_eq_incomplete_iff whole).mpr
      ⟨Opcode.agrees_take_of_fits whole fits count, ?_⟩⟩
    rw [Opcode.length_of_build built] at short
    rw [List.length_take]
    omega
  -- Where one opcode waits, none fits.
  have misfit (other : Opcode) (found : other ∈ opcodes) : ¬ other.Fits (bytes.take count) mode :=
    fun otherFits => separated_opcodes.settled found otherFits opcode member awaits
  refine (reads_decode (bytes.take count) address mode).functional ?_
  exact .truncated (.inr ⟨opcode, member, awaits⟩) (fun other found => if_neg (misfit other found))
    fun other found forbidden => misfit other found forbidden.1

namespace Encoding

def Bit.filled (filler : Bool) : Bit → Bool
  | .fixed value => value
  | .field _ => filler

theorem Pattern.agrees_filled (filler : Bool) (bits : List Bit) :
    agrees bits (bits.map (Bit.filled filler)) = true := by
  induction bits with
  | nil => rfl
  | cons bit bits ih => cases bit <;> simp [Bit.filled, admits, ih]

namespace Opcode
variable (opcode : Opcode) (bytes : List UInt8)

/-- What fields not yet seen are filled with: a register list that is given by
its last register needs a high one, any other a low one. -/
def filler : Bool := opcode.slots.any fun
  | .listTo _ _ => true
  | _ => false

def completion : List UInt8 :=
  packBytes ((opcode.pattern.bits.drop (8 * bytes.length)).map (Bit.filled opcode.filler))

variable {opcode bytes} {longest : Nat}

theorem bytesBits_completion (whole : opcode.pattern.IsWhole longest) (bytes : List UInt8) :
    bytesBits (opcode.completion bytes) =
      (opcode.pattern.bits.drop (8 * bytes.length)).map (Bit.filled opcode.filler) := by
  apply bytesBits_packBytes (opcode.pattern.length - bytes.length)
  rw [List.length_map, List.length_drop, whole.1]
  omega

theorem fits_completion (whole : opcode.pattern.IsWhole longest) {mode : Mode}
    (awaits : opcode.Awaits bytes mode) :
    opcode.Fits (bytes ++ opcode.completion bytes) mode := by
  obtain ⟨agree, short⟩ := (Pattern.compare_eq_incomplete_iff whole).mp awaits.2
  have added := congrArg List.length (bytesBits_completion whole bytes)
  rw [length_bytesBits, List.length_map, List.length_drop, whole.1] at added
  refine ⟨awaits.1, (Pattern.compare_eq_full_iff whole).mpr ⟨?_, ?_⟩⟩
  · rw [bytesBits_append, Pattern.agrees_append, agree, bytesBits_completion whole,
      length_bytesBits, Pattern.agrees_filled]
    rfl
  · rw [List.length_append]
    omega

/-- A field that lies in the missing bytes reads as filled. -/
theorem digits_completion (whole : opcode.pattern.IsWhole longest)
    (small : opcode.pattern.bits.length ≤ UInt16.size) {letter : Char}
    (missing : ∀ position ∈ opcode.pattern.positions letter, 8 * bytes.length ≤ position) :
    opcode.pattern.digits (bytes ++ opcode.completion bytes) letter =
      List.replicate (opcode.pattern.positions letter).length opcode.filler := by
  rw [Pattern.digits, List.eq_replicate_iff, List.length_map]
  refine ⟨rfl, fun digit member => ?_⟩
  obtain ⟨position, found, rfl⟩ := List.mem_map.mp member
  have beyond := missing position found
  have stored := (Pattern.mem_positions small).mp found
  rw [Pattern.bitAt_eq, bytesBits_append, List.getElem?_append_right (by simpa using beyond),
    bytesBits_completion whole, List.getElem?_map, List.getElem?_drop, length_bytesBits,
    Nat.add_sub_cancel' beyond, stored]
  rfl

end Opcode

def Opcode.ListsLast (opcode : Opcode) : Prop :=
  ∀ slot ∈ opcode.slots, ∀ fields ∈ slot.list?,
    (opcode.pattern.positions fields.1).length = 3 ∧
      (opcode.pattern.positions fields.2).length ≤ 2 ∧
      (∀ position ∈ opcode.pattern.positions fields.1, 8 * (opcode.pattern.length - 1) ≤ position) ∧
      (opcode.filler = true ↔ slot = .listTo fields.1 fields.2)

instance (opcode : Opcode) : Decidable opcode.ListsLast :=
  inferInstanceAs (Decidable (∀ slot ∈ opcode.slots, ∀ fields ∈ slot.list?, _ ∧ _ ∧ _ ∧ (_ ↔ _)))

theorem listsLast_opcodes : ∀ opcode ∈ opcodes, opcode.ListsLast := by
  decide +kernel

namespace Opcode
variable {opcode : Opcode} {bytes : List UInt8} {address : Address} {mode : Mode}

theorem bits_length_le (member : opcode ∈ opcodes) :
    opcode.pattern.bits.length ≤ UInt16.size := by
  have whole := separated_opcodes.whole opcode member
  have longest := whole.2.2
  have size : UInt16.size = 65536 := rfl
  have most : maxInstructionLength = 10 := rfl
  rw [whole.1]
  omega

theorem build_completion (member : opcode ∈ opcodes) (awaits : opcode.Awaits bytes mode)
    {error : DecodeError}
    (failed : opcode.build (bytes ++ opcode.completion bytes) address mode = .error error) :
    error = .illegalOperand := by
  have whole := separated_opcodes.whole opcode member
  have small := bits_length_le member
  obtain ⟨slot, inside, slotFailed⟩ := exists_of_build_eq_error failed
  have lists := listsLast_opcodes opcode member slot inside
  have short := ((Pattern.compare_eq_incomplete_iff whole).mp awaits.2).2
  -- The register field is among the missing bits, so it reads as filled.
  have register (letter : Char) (three : (opcode.pattern.positions letter).length = 3)
      (last : ∀ position ∈ opcode.pattern.positions letter,
        8 * (opcode.pattern.length - 1) ≤ position) :
      opcode.pattern.field (bytes ++ opcode.completion bytes) letter =
        gather (List.replicate 3 opcode.filler) % UInt32.size := by
    rw [Pattern.field_eq, digits_completion whole small, three]
    intro position found
    have := last position found
    omega
  have size (letter : Char) (two : (opcode.pattern.positions letter).length ≤ 2) :
      opcode.pattern.field (bytes ++ opcode.completion bytes) letter < 4 :=
    Pattern.field_lt_of_width two _
  rcases Slot.operand_eq_error slotFailed with illegal | ⟨last, count, rfl, fewer⟩ |
      ⟨first, count, rfl, more⟩
  · exact illegal
  · obtain ⟨three, two, behind, filled⟩ := lists (last, count) rfl
    rw [register last three behind, filled.mpr rfl] at fewer
    have bound := size count two
    have seven : gather (List.replicate 3 true) % UInt32.size = 7 := rfl
    omega
  · obtain ⟨three, two, behind, filled⟩ := lists (first, count) rfl
    have empty : opcode.filler = false := by
      apply Bool.eq_false_iff.mpr
      intro full
      cases filled.mp full
    rw [register first three behind, empty] at more
    have bound := size count two
    have zero : gather (List.replicate 3 false) % UInt32.size = 0 := rfl
    omega

end Opcode

theorem exists_awaits_nil (mode : Mode) : ∃ opcode ∈ opcodes, opcode.Awaits [] mode := by
  have shared : opcodes.any (fun opcode => opcode.core = .h8300h) = true := by decide +kernel
  obtain ⟨opcode, member, core⟩ := List.any_eq_true.mp shared
  have whole := separated_opcodes.whole opcode member
  refine ⟨opcode, member, ?_, (Pattern.compare_eq_incomplete_iff whole).mpr ⟨?_, whole.2.1⟩⟩
  · rw [of_decide_eq_true core]
    rfl
  · exact Pattern.agrees_nil_right _

end Encoding

/-- A truncated input is shorter than the longest encoding, and is the
beginning of an encoding of some instruction. -/
theorem exists_completion {bytes : List UInt8} {address : Address} {mode : Mode}
    (truncated : decode bytes address mode = .error .truncated) :
    bytes.length < maxInstructionLength ∧
      ∃ suffix, (∃ instruction, decode (bytes ++ suffix) address mode = .ok instruction) ∨
        decode (bytes ++ suffix) address mode = .error .illegalOperand := by
  obtain ⟨opcode, member, awaits⟩ : ∃ opcode ∈ opcodes, opcode.Awaits bytes mode := by
    have reads := reads_decode bytes address mode
    rw [truncated] at reads
    cases reads with
    | truncated cut _ _ =>
      rcases cut with rfl | waiting
      · exact exists_awaits_nil mode
      · exact waiting
  have whole := separated_opcodes.whole opcode member
  have short := ((Pattern.compare_eq_incomplete_iff whole).mp awaits.2).2
  refine ⟨Nat.lt_of_lt_of_le short whole.2.2, opcode.completion bytes, ?_⟩
  have fits := Opcode.fits_completion whole awaits
  have reads := reads_decode (bytes ++ opcode.completion bytes) address mode
  generalize decode (bytes ++ opcode.completion bytes) address mode = result at reads ⊢
  cases reads with
  | decoded => exact .inl ⟨_, rfl⟩
  | illegal => exact .inr rfl
  | truncated _ unbuilt allowed | unknown _ _ unbuilt allowed =>
    exfalso
    cases built : opcode.build (bytes ++ opcode.completion bytes) address mode with
    | ok instruction =>
      have gives := Opcode.result?_eq_some_iff.mpr ⟨fits, built⟩
      rw [unbuilt opcode member] at gives
      cases gives
    | error error =>
      have illegal := Opcode.build_completion member awaits built
      exact allowed opcode member ⟨fits, illegal ▸ built⟩

theorem decode_take_longest (bytes : List UInt8) (address : Address) (mode : Mode) :
    decode (bytes.take maxInstructionLength) address mode = decode bytes address mode := by
  by_cases short : bytes.length ≤ maxInstructionLength
  · rw [List.take_of_length_le short]
  · have final : decode (bytes.take maxInstructionLength) address mode ≠ .error .truncated := by
      intro truncated
      have bound := (exists_completion truncated).1
      rw [List.length_take] at bound
      omega
    have longer := decode_append final (bytes.drop maxInstructionLength)
    rw [List.take_append_drop] at longer
    exact longer.symm

/-- Decoding recognises a prefix code online. A verdict other than truncation
is final; before the end of an instruction the verdict is truncation; and an
input that is cut short can be completed. So the bytes that are read at an
address decide as much as all that follow it in its segment. -/
theorem decode_recognises_prefix_code (address : Address) (mode : Mode) :
    (∀ bytes suffix, decode bytes address mode ≠ .error .truncated →
      decode (bytes ++ suffix) address mode = decode bytes address mode) ∧
    (∀ bytes instruction, decode bytes address mode = .ok instruction →
      instruction.length ≤ bytes.length ∧
        ∀ count < instruction.length, decode (bytes.take count) address mode = .error .truncated) ∧
    (∀ bytes, decode bytes address mode = .error .truncated →
      bytes.length < maxInstructionLength ∧
        ∃ suffix, (∃ instruction, decode (bytes ++ suffix) address mode = .ok instruction) ∨
          decode (bytes ++ suffix) address mode = .error .illegalOperand) ∧
    (∀ bytes, decode (bytes.take maxInstructionLength) address mode = decode bytes address mode) ∧
    ∀ (database : Database) (segment : Segment), database.memory.segmentAt? address = some segment →
      database.view.decodeAt address mode =
        decode (segment.data.toList.drop (address.toNat - segment.start.toNat)) address mode := by
  refine ⟨fun _ suffix final => decode_append final suffix, ?_, fun _ => exists_completion,
    fun bytes => decode_take_longest bytes address mode, ?_⟩
  · intro bytes instruction decoded
    exact ⟨length_le_of_decode decoded, fun _ short => decode_take decoded short⟩
  · intro database segment found
    have mapped : database.view.isMapped address = true := by
      simp [Database.view, Memory.isMapped, found]
    rw [View.decodeAt, if_pos mapped]
    exact (congrArg (decode · address mode) (Memory.read_eq found _)).trans
      (decode_take_longest _ address mode)

/-- A pop of a long register, with a byte behind it, cut short, and in memory. -/
theorem pop_recognised_online :
    decode ([0x01, 0x00, 0x6D, 0x75] ++ [0xFF]) 0x100 ⟨.h8s, .advanced⟩ =
        decode [0x01, 0x00, 0x6D, 0x75] 0x100 ⟨.h8s, .advanced⟩ ∧
      (∀ count < 4, decode ([0x01, 0x00, 0x6D, 0x75].take count) 0x100 ⟨.h8s, .advanced⟩ =
        .error .truncated) ∧
      (∃ suffix, (∃ instruction,
          decode ([0x01, 0x30] ++ suffix) 0x100 ⟨.h8s, .advanced⟩ = .ok instruction) ∨
        decode ([0x01, 0x30] ++ suffix) 0x100 ⟨.h8s, .advanced⟩ = .error .illegalOperand) ∧
      (Database.ofMemory (.ofImage #[0x01, 0x00, 0x6D, 0x75] 0x100)).view.decodeAt 0x100
          ⟨.h8s, .advanced⟩ =
        decode [0x01, 0x00, 0x6D, 0x75] 0x100 ⟨.h8s, .advanced⟩ := by
  have pop : decode [0x01, 0x00, 0x6D, 0x75] 0x100 ⟨.h8s, .advanced⟩ =
      .ok ⟨0x100, 4, .pop, some .long, [.register (.general .whole 5)], false, false⟩ :=
    (decode_eq_decodeWith ..).trans (by decide +kernel)
  have cut : decode [0x01, 0x30] 0x100 ⟨.h8s, .advanced⟩ = .error .truncated :=
    (decode_eq_decodeWith ..).trans (by decide +kernel)
  obtain ⟨final, beginning, completed, -, tail⟩ :=
    decode_recognises_prefix_code 0x100 ⟨.h8s, .advanced⟩
  refine ⟨final _ [0xFF] ?_, (beginning _ _ pop).2, (completed _ cut).2,
    tail (.ofMemory (.ofImage #[0x01, 0x00, 0x6D, 0x75] 0x100))
      ⟨"ROM", 0x100, #[0x01, 0x00, 0x6D, 0x75]⟩ (by decide)⟩
  rw [pop]
  intro same
  cases same

end H8
