import H8.Proofs.Assembly.Line
import H8.Proofs.Decode.Operands
import H8.Proofs.Decode.WellFormed

/-! The text of an instruction determines it.

No two opcodes look alike in the mnemonic, the width and the kinds of operands
that a line shows, unless a constant tells them apart. Where the opcode is known,
the tokens of an operand leave no choice: its slot says what kind of register or
number they stand for.
-/

set_option autoImplicit false

namespace H8

open Assembly Encoding

theorem Register.eq_of_spelled {first second : Register} (same : first.spelled = second.spelled)
    (kinds : first.kind = second.kind) : first = second :=
  Register.eq_of_name kinds (congrArg Word.text same)

theorem Assembly.Style.numeral_inj {style : Style} {first second : Nat}
    (same : style.numeral first = style.numeral second) : first = second :=
  style.number_inj (congrArg Word.text same)

theorem signTokens_inj {style : Style} {first second : Int} {rest more : List Token}
    (same : signTokens first ++ .word (style.numeral first.natAbs) :: rest =
      signTokens second ++ .word (style.numeral second.natAbs) :: more) :
    first = second ∧ rest = more := by
  by_cases left : first < 0 <;> by_cases right : second < 0 <;>
    simp only [signTokens, left, right, if_true, if_false, List.nil_append, List.cons_append,
      List.cons.injEq, Token.word.injEq, reduceCtorEq, false_and, true_and] at same
  · have size := Style.numeral_inj same.1
    exact ⟨by omega, same.2⟩
  · have size := Style.numeral_inj same.1
    exact ⟨by omega, same.2⟩

theorem IsSigned.widen {bits wider : Nat} {value : Int} (signed : IsSigned bits value)
    (wide : bits ≤ wider) : IsSigned wider value := by
  have powers : (2 : Int) ^ (bits - 1) ≤ 2 ^ (wider - 1) :=
    mod_cast Nat.pow_le_pow_right (by decide) (Nat.sub_le_sub_right wide 1)
  exact ⟨(neg_le_neg powers).trans signed.1, signed.2.trans_le powers⟩

/-- Branches from one place with the same target have the same displacement,
whatever the size of the address space. -/
theorem branchTarget_inj {mode : Mode} {next : Address} {first second : Int}
    (left : IsSigned 16 first) (right : IsSigned 16 second)
    (same : branchTarget mode next first = branchTarget mode next second) : first = second := by
  have residues : (next.toNat + first) % (2 ^ mode.space.bits : Nat) =
      (next.toNat + second) % (2 ^ mode.space.bits : Nat) := by
    rw [← toNat_branchTarget, ← toNat_branchTarget, same]
  simp only [IsSigned] at left right
  cases space : mode.space <;> simp only [space, Space.bits] at residues <;> omega

theorem Operand.displaced_eq_of_tokens {style : Style} {number other : Nat} {first second : Int}
    {field : FieldWidth} (same : (Operand.displaced (.long number) first field).tokens style =
      (Operand.displaced (.long other) second field).tokens style) :
    Operand.displaced (.long number) first field = .displaced (.long other) second field := by
  simp only [tokens, List.cons_append, List.cons.injEq, true_and] at same
  obtain ⟨displacements, rest⟩ := signTokens_inj same
  simp only [List.cons.injEq, Token.word.injEq, true_and, and_true] at rest
  rw [displacements, Register.eq_of_spelled rest rfl]

theorem Operand.list_eq_of_tokens {style : Style} {mode : Mode} {first second : Register}
    {count size : Nat} (left : (Operand.registerList first count).WellFormed mode)
    (right : (Operand.registerList second size).WellFormed mode)
    (same : (Operand.registerList first count).tokens style =
      (Operand.registerList second size).tokens style) :
    Operand.registerList first count = .registerList second size := by
  obtain ⟨several, -, number, last, -, rfl, ending, value⟩ := left
  obtain ⟨alsoSeveral, -, other, otherLast, -, rfl, otherEnding, otherValue⟩ := right
  simp only [tokens, ending, otherEnding, List.cons.injEq, Token.word.injEq, true_and, and_true]
    at same
  cases Register.eq_of_spelled same.1 rfl
  cases Register.eq_of_spelled same.2 rfl
  have counts : count = size := by omega
  rw [counts]

namespace Encoding.Slot
variable {slot : Slot} {mode : Mode} {next : Address} {first second : Char → Nat}
  {left right : Operand} {style : Style}

theorem operand_eq_of_tokens (made : slot.operand mode next first = .ok left)
    (alsoMade : slot.operand mode next second = .ok right) (leftFormed : left.WellFormed mode)
    (rightFormed : right.WellFormed mode) (same : left.tokens style = right.tokens style) :
    left = right := by
  have kinds : left.kind = right.kind :=
    (kind_of_operand made).trans (kind_of_operand alsoMade).symm
  cases slot with
  | control _ | const _ | popped | pushed => exact Except.ok.inj (made.symm.trans alsoMade)
  | reg8 letter | reg16 letter | reg32 letter =>
    cases made
    cases alsoMade
    have names := Token.word.inj (List.cons.inj same).1
    exact congrArg Operand.register (Register.eq_of_spelled names kinds)
  | imm letter _ | bit letter =>
    cases made
    cases alsoMade
    simp only [Operand.tokens, List.cons.injEq, Token.word.injEq, true_and, and_true] at same
    rw [Style.numeral_inj same]
  | vector letter =>
    cases made
    cases alsoMade
    simp only [Operand.tokens, List.cons.injEq, Token.word.injEq, true_and, and_true] at same
    have slots := Style.numeral_inj same
    have word {slot : Nat} (formed : slot < 2 ^ 8) : (UInt32.ofNat slot).toNat = slot :=
      UInt32.toNat_ofNat_of_lt' (Nat.lt_trans formed (by decide))
    rw [word leftFormed, word rightFormed] at slots
    rw [slots]
  | ind base | postInc base | preDec base =>
    cases made
    cases alsoMade
    simp only [Operand.tokens, List.cons.injEq, Token.word.injEq, true_and, and_true] at same
    rw [Register.eq_of_spelled same rfl]
  | disp16 letter base | dispLong letter base =>
    cases made
    cases alsoMade
    exact Operand.displaced_eq_of_tokens same
  | abs8 letter | abs16 letter | abs24 letter | absLong letter =>
    cases made
    cases alsoMade
    simp only [Operand.tokens, List.cons.injEq, Token.word.injEq, true_and, and_true] at same
    rw [UInt32.toNat_inj.mp (Style.numeral_inj same)]
  | rel8 letter | rel16 letter =>
    cases made
    cases alsoMade
    simp only [Operand.tokens, List.cons.injEq, Token.word.injEq, and_true] at same
    have targets := UInt32.toNat_inj.mp (Style.numeral_inj same)
    have displacements := branchTarget_inj (leftFormed.2.2.widen (by decide))
      (rightFormed.2.2.widen (by decide)) targets
    rw [displacements]
  | listTo register count | listFrom register count =>
    simp only [Slot.operand] at made alsoMade
    split at made
    · cases made
    · split at alsoMade
      · cases alsoMade
      · cases made
        cases alsoMade
        exact Operand.list_eq_of_tokens leftFormed rightFormed same

theorem operands_eq_of_tokens {slots : List Slot} {lefts rights : List Operand}
    (made : List.Forall₂ (fun slot operand => slot.operand mode next first = .ok operand)
      slots lefts)
    (alsoMade : List.Forall₂ (fun slot operand => slot.operand mode next second = .ok operand)
      slots rights)
    (leftFormed : ∀ operand ∈ lefts, operand.WellFormed mode)
    (rightFormed : ∀ operand ∈ rights, operand.WellFormed mode)
    (same : lefts.map (Operand.tokens style) = rights.map (Operand.tokens style)) :
    lefts = rights := by
  induction made generalizing rights with
  | nil =>
    cases alsoMade
    rfl
  | cons head _ ih =>
    cases alsoMade with
    | cons otherHead others =>
      rw [List.forall_mem_cons] at leftFormed rightFormed
      obtain ⟨heads, tails⟩ := List.cons.inj same
      rw [operand_eq_of_tokens head otherHead leftFormed.1 rightFormed.1 heads,
        ih others leftFormed.2 rightFormed.2 tails]

def shown : Slot → Slot
  | .reg32 letter => .reg16 letter
  | .imm letter _ | .bit letter => .imm letter .byte
  | slot => slot

theorem kind_shown (slot : Slot) : slot.shown.kind = slot.kind.shown := by
  cases slot <;> rfl

theorem constant?_shown (slot : Slot) : slot.shown.constant? = slot.constant? := by
  cases slot <;> rfl

end Encoding.Slot

namespace Encoding.Opcode

def shown (opcode : Opcode) : Opcode :=
  { opcode with pattern := ⟨[]⟩, slots := opcode.slots.map Slot.shown }

theorem kinds_shown (opcode : Opcode) :
    opcode.shown.slots.map Slot.kind = (opcode.slots.map Slot.kind).map Kind.shown := by
  simp [shown, Slot.kind_shown]

theorem constant?_shown (opcode : Opcode) : opcode.shown.constant? = opcode.constant? := by
  unfold constant? shown
  cases opcode.slots with
  | nil => rfl
  | cons slot slots => exact slot.constant?_shown

theorem shown_differs_of_ne {first second : Opcode} (left : first ∈ opcodes)
    (right : second ∈ opcodes) (different : first ≠ second) :
    first.shown.differs second.shown = true := by
  have pairwise : opcodes.Pairwise fun first second => first.shown.differs second.shown = true :=
    pairwise_of_allPairs (by decide +kernel)
  have : Std.Symm fun first second : Opcode => first.shown.differs second.shown = true :=
    ⟨fun first second differs => differs_comm first.shown second.shown ▸ differs⟩
  exact pairwise.forall left right different

theorem kinds_of_tokens {opcode : Opcode} {bytes : List UInt8} {address : Address} {mode : Mode}
    {instruction : Instruction} (built : opcode.build bytes address mode = .ok instruction)
    (style : Style) : opcode.shown.slots.map Slot.kind =
      (instruction.operands.map (Operand.tokens style)).map kindIn := by
  rw [kinds_shown, ← kinds_of_build built, List.map_map, List.map_map]
  exact List.map_congr_left fun operand _ => (operand.kindIn_tokens style).symm

theorem eq_of_tokens {style : Style} {first second : Opcode} (left : first ∈ opcodes)
    (right : second ∈ opcodes) {bytes otherBytes : List UInt8} {address : Address} {mode : Mode}
    {instruction other : Instruction} (built : first.build bytes address mode = .ok instruction)
    (alsoBuilt : second.build otherBytes address mode = .ok other)
    (mnemonics : instruction.mnemonic = other.mnemonic) (widths : instruction.width = other.width)
    (operands : instruction.operands.map (Operand.tokens style) =
      other.operands.map (Operand.tokens style)) : first = second := by
  by_contra different
  have differs := shown_differs_of_ne left right different
  have kinds : first.shown.slots.map Slot.kind = second.shown.slots.map Slot.kind := by
    rw [kinds_of_tokens built style, kinds_of_tokens alsoBuilt style, operands]
  have constants (one two : Nat) (firstHas : first.shown.constant? = some one)
      (secondHas : second.shown.constant? = some two) : one = two := by
    have heads := congrArg List.head? operands
    rw [constant?_shown] at firstHas secondHas
    rw [List.head?_map, List.head?_map, head?_of_constant firstHas built,
      head?_of_constant secondHas alsoBuilt] at heads
    simp only [Option.map_some, Operand.tokens, Option.some.injEq, List.cons.injEq,
      Token.word.injEq, true_and, and_true] at heads
    exact Style.numeral_inj heads
  obtain ⟨_, -, rfl⟩ := build_eq_ok_iff.mp built
  obtain ⟨_, -, rfl⟩ := build_eq_ok_iff.mp alsoBuilt
  have names : first.mnemonic.ctorIdx = second.mnemonic.ctorIdx := by
    rw [← ctorIdx_mnemonicOf left bytes, ← ctorIdx_mnemonicOf right otherBytes]
    exact congrArg Mnemonic.ctorIdx mnemonics
  have alike : first.shown.differs second.shown = false :=
    differs_eq_false names widths rfl kinds constants
  rw [alike] at differs
  cases differs

end Encoding.Opcode

/-- Instructions at one address that are written alike, in either style, are the
same in all that they hold. -/
theorem eq_of_statementLine (style : Style) {first second : List UInt8} {address : Address}
    {mode : Mode} {left right : Instruction} (decoded : decode first address mode = .ok left)
    (alsoDecoded : decode second address mode = .ok right)
    (same : style.statementLine (render (fun _ => none) left) =
      style.statementLine (render (fun _ => none) right)) : left = right := by
  obtain ⟨mnemonics, widths, tokens⟩ := shown_of_statementLine same
  obtain ⟨opcode, member, -, built⟩ := exists_opcode decoded
  obtain ⟨other, found, -, alsoBuilt⟩ := exists_opcode alsoDecoded
  obtain rfl := Opcode.eq_of_tokens member found built alsoBuilt mnemonics widths tokens
  obtain ⟨lefts, made, rfl⟩ := Opcode.build_eq_ok_iff.mp built
  obtain ⟨rights, alsoMade, rfl⟩ := Opcode.build_eq_ok_iff.mp alsoBuilt
  have operands : lefts = rights := Slot.operands_eq_of_tokens made alsoMade
    (operands_wellFormed_of_decode decoded) (operands_wellFormed_of_decode alsoDecoded) tokens
  simp only [Opcode.assemble] at mnemonics ⊢
  rw [mnemonics, operands]

/-- A load whose encodings differ in the reserved byte of the displacement. -/
theorem eq_of_statementLine_load : ∃ left right,
    decode [0x01, 0x00, 0x78, 0x70, 0x6B, 0x20, 0x00, 0xFF, 0xFF, 0xFE] 0x100
        ⟨.h8300h, .advanced⟩ = .ok left ∧
      decode [0x01, 0x00, 0x78, 0x70, 0x6B, 0x20, 0xFF, 0xFF, 0xFF, 0xFE] 0x100
        ⟨.h8300h, .advanced⟩ = .ok right ∧
      Style.hew.statementLine (render (fun _ => none) left) = "    mov.l @(-2:24,sp),er0\n" ∧
      Style.hew.statementLine (render (fun _ => none) right) = "    mov.l @(-2:24,sp),er0\n" ∧
      left = right := by
  have load : decode [0x01, 0x00, 0x78, 0x70, 0x6B, 0x20, 0x00, 0xFF, 0xFF, 0xFE] 0x100
      ⟨.h8300h, .advanced⟩ = .ok ⟨0x100, 10, .mov, some .long,
        [.displaced (.general .whole 7) (-2) .bits24, .register (.general .whole 0)],
        true, false⟩ :=
    (decode_eq_decodeWith ..).trans (by decide +kernel)
  have other : decode [0x01, 0x00, 0x78, 0x70, 0x6B, 0x20, 0xFF, 0xFF, 0xFF, 0xFE] 0x100
      ⟨.h8300h, .advanced⟩ = .ok ⟨0x100, 10, .mov, some .long,
        [.displaced (.general .whole 7) (-2) .bits24, .register (.general .whole 0)],
        true, false⟩ :=
    (decode_eq_decodeWith ..).trans (by decide +kernel)
  exact ⟨_, _, load, other, by decide +kernel, by decide +kernel,
    eq_of_statementLine .hew load other rfl⟩

end H8
