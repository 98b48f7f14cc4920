import H8.Proofs.Assembly.Operands
import Mathlib.Data.List.Nodup

/-! The line of an instruction.

It shows the mnemonic, the width and the tokens of each operand.
-/

set_option autoImplicit false

namespace H8

open Assembly

def Condition.all : List Condition := (List.range 16).map Condition.ofField

def Mnemonic.all : List Mnemonic :=
  Condition.all.map .branch ++
    ([.add, .adds, .addx, .and, .andc, .band, .bclr, .biand, .bild, .bior, .bist, .bixor, .bld,
      .bnot, .bor, .bset, .bsr, .bst, .btst, .bxor, .clrmac, .cmp, .daa, .das, .dec, .divxs, .divxu,
      .eepmov, .exts, .extu, .inc, .jmp, .jsr, .ldc, .ldm, .ldmac, .mac, .mov, .movfpe, .movtpe,
      .mulxs, .mulxu, .neg, .nop, .not, .or, .orc, .pop, .push, .rotl, .rotr, .rotxl, .rotxr, .rte,
      .rts, .shal, .shar, .shll, .shlr, .sleep, .stc, .stm, .stmac, .sub, .subs, .subx, .tas,
      .trapa, .xor, .xorc] : List Mnemonic)

theorem Mnemonic.mem_all (mnemonic : Mnemonic) : mnemonic ∈ all := by
  cases mnemonic with
  | branch condition => cases condition <;> decide
  | _ => decide

theorem Mnemonic.name_all :
    (all.map name).Nodup ∧ ∀ mnemonic ∈ all, isWord mnemonic.name = true := by
  decide +kernel

def Mnemonic.spelled (mnemonic : Mnemonic) : Word :=
  ⟨mnemonic.name, name_all.2 mnemonic mnemonic.mem_all⟩

theorem Mnemonic.spelled_inj {first second : Mnemonic} (same : first.spelled = second.spelled) :
    first = second :=
  List.inj_on_of_nodup_map name_all.1 first.mem_all second.mem_all (congrArg Word.text same)

def Width.spelled : Width → Word
  | .byte => ⟨"b", by decide⟩
  | .word => ⟨"w", by decide⟩
  | .long => ⟨"l", by decide⟩

theorem Width.suffix_eq (width : Width) : width.suffix = "." ++ width.spelled.text := by
  cases width <;> rfl

theorem Width.spelled_inj {first second : Width} (same : first.spelled = second.spelled) :
    first = second := by
  revert same
  cases first <;> cases second <;> decide

def opcodeTokens (mnemonic : Mnemonic) : Option Width → List Token
  | none => [.word mnemonic.spelled]
  | some width => [.word mnemonic.spelled, .mark .dot, .word width.spelled]

/-- Operands up to the end of the line. The separator stands before the first. -/
def operandTokens (style : Style) (separator : Mark) : List Operand → List Token
  | [] => [.mark .newline]
  | operand :: rest =>
    .mark separator :: (operand.tokens style ++ operandTokens style .comma rest)

def Instruction.tokens (style : Style) (instruction : Instruction) : List Token :=
  opcodeTokens instruction.mnemonic instruction.width ++
    operandTokens style .space instruction.operands

section
variable {style : Style}

theorem toList_opcode (instruction : Instruction) :
    instruction.opcode.toList = spell (opcodeTokens instruction.mnemonic instruction.width) := by
  cases width : instruction.width with
  | none => simp [Instruction.opcode, width, opcodeTokens, Token.chars, Mnemonic.spelled]
  | some size =>
    simp [Instruction.opcode, width, opcodeTokens, Token.chars, Mnemonic.spelled, Mark.char,
      Width.suffix_eq]

theorem toList_termList (style : Style) (isTransfer : Bool) (operand : Operand)
    (operands : List Operand) :
    (style.termList ((operand :: operands).map (operandTerm (fun _ => none) isTransfer))).toList ++
        ['\n'] = spell (operand.tokens style ++ operandTokens style .comma operands) := by
  induction operands generalizing operand with
  | nil => simp [Style.termList, toList_term, operandTokens, Mark.char]
  | cons next operands ih =>
    have rest := ih next
    simp only [List.map_cons] at rest ⊢
    simp [Style.termList, toList_term, operandTokens, Mark.char, rest]

theorem toList_statementLine (instruction : Instruction) :
    (style.statementLine (render (fun _ => none) instruction)).toList =
      "    ".toList ++ spell (instruction.tokens style) := by
  unfold Style.statementLine render Instruction.tokens
  cases instruction.operands with
  | nil => simp [toList_opcode, operandTokens, Mark.char]
  | cons operand operands =>
    have list := toList_termList style instruction.isTransfer operand operands
    simp only [List.map_cons] at list ⊢
    simp [toList_opcode, operandTokens, Mark.char, list]

theorem spaced_operandTokens {tokens : List Token} (spaced : Spaced tokens) (separator : Mark)
    (operands : List Operand) : Spaced (tokens ++ operandTokens style separator operands) := by
  induction operands generalizing tokens separator with
  | nil => exact spaced.append_mark List.isChain_nil
  | cons operand operands ih => exact spaced.append_mark (ih (operand.spaced_tokens style) .comma)

theorem Instruction.spaced_tokens (instruction : Instruction) :
    Spaced (instruction.tokens style) := by
  apply spaced_operandTokens
  cases instruction.width <;> simp [opcodeTokens, Spaced, Token.mark?]

theorem exists_operandTokens (style : Style) (separator : Mark) (operands : List Operand) :
    ∃ mark rest, (mark = separator ∨ mark = .newline) ∧
      operandTokens style separator operands = .mark mark :: rest := by
  cases operands with
  | nil => exact ⟨.newline, [], .inr rfl, rfl⟩
  | cons operand operands => exact ⟨separator, _, .inl rfl, rfl⟩

theorem operandTokens_inj {separator : Mark} (inner : separator ≠ .newline)
    {first second : List Operand}
    (same : operandTokens style separator first = operandTokens style separator second) :
    first.map (Operand.tokens style) = second.map (Operand.tokens style) := by
  induction first generalizing separator second with
  | nil =>
    cases second with
    | nil => rfl
    | cons other others => simp [operandTokens, inner.symm] at same
  | cons operand operands ih =>
    cases second with
    | nil => simp [operandTokens, inner] at same
    | cons other others =>
      obtain ⟨mark, rest, left, shape⟩ := exists_operandTokens style .comma operands
      obtain ⟨otherMark, _, right, otherShape⟩ := exists_operandTokens style .comma others
      have tail := (List.cons.inj same).2
      rw [shape, otherShape] at tail
      have ends : mark ∈ operandEnds := by simpa [operandEnds] using left
      have alsoEnds : otherMark ∈ operandEnds := by simpa [operandEnds] using right
      obtain ⟨tokens, rfl, rfl⟩ := Operand.tokens_append_inj ends alsoEnds tail
      have later := ih (by decide) (shape.trans otherShape.symm)
      rw [List.map_cons, List.map_cons, tokens, later]

theorem opcodeTokens_inj {mnemonic other : Mnemonic} {width otherWidth : Option Width}
    {operands others : List Operand}
    (same : opcodeTokens mnemonic width ++ operandTokens style .space operands =
      opcodeTokens other otherWidth ++ operandTokens style .space others) :
    mnemonic = other ∧ width = otherWidth ∧
      operandTokens style .space operands = operandTokens style .space others := by
  -- A dot shows that there is a suffix, since no operand starts behind one.
  obtain ⟨mark, rest, left, shape⟩ := exists_operandTokens style .space operands
  obtain ⟨otherMark, otherRest, right, otherShape⟩ := exists_operandTokens style .space others
  have undotted : mark ≠ .dot := by rcases left with rfl | rfl <;> decide
  have otherUndotted : otherMark ≠ .dot := by rcases right with rfl | rfl <;> decide
  rw [shape, otherShape] at same ⊢
  cases width with
  | none =>
    cases otherWidth with
    | none =>
      obtain ⟨names, tail⟩ := List.cons.inj same
      exact ⟨Mnemonic.spelled_inj (Token.word.inj names), rfl, tail⟩
    | some size => simp [opcodeTokens, undotted] at same
  | some size =>
    cases otherWidth with
    | none => simp [opcodeTokens, otherUndotted.symm] at same
    | some otherSize =>
      simp only [opcodeTokens, List.cons_append, List.nil_append, List.cons.injEq, Token.word.injEq,
        true_and] at same
      exact ⟨Mnemonic.spelled_inj same.1, congrArg some (Width.spelled_inj same.2.1),
        List.cons_eq_cons.mpr same.2.2⟩

theorem shown_of_statementLine {first second : Instruction}
    (same : style.statementLine (render (fun _ => none) first) =
      style.statementLine (render (fun _ => none) second)) :
    first.mnemonic = second.mnemonic ∧ first.width = second.width ∧
      first.operands.map (Operand.tokens style) = second.operands.map (Operand.tokens style) := by
  have chars := congrArg String.toList same
  rw [toList_statementLine, toList_statementLine] at chars
  have tokens := spell_inj first.spaced_tokens second.spaced_tokens (List.append_cancel_left chars)
  obtain ⟨mnemonics, widths, operands⟩ := opcodeTokens_inj tokens
  exact ⟨mnemonics, widths, operandTokens_inj (by decide) operands⟩

end

end H8
