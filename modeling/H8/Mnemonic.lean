/-! Branch conditions and instruction mnemonics. -/

set_option autoImplicit false

namespace H8

/-- Branch conditions in the order of their encoding. -/
inductive Condition where
  | always
  | never
  | higher
  | lowerOrSame
  | carryClear
  | carrySet
  | notEqual
  | equal
  | overflowClear
  | overflowSet
  | plus
  | minus
  | greaterOrEqual
  | less
  | greater
  | lessOrEqual
  deriving DecidableEq, Repr

namespace Condition

/-- A 4-bit condition field. Higher bits are ignored. -/
def ofField (field : Nat) : Condition :=
  match field % 16 with
  | 0 => .always
  | 1 => .never
  | 2 => .higher
  | 3 => .lowerOrSame
  | 4 => .carryClear
  | 5 => .carrySet
  | 6 => .notEqual
  | 7 => .equal
  | 8 => .overflowClear
  | 9 => .overflowSet
  | 10 => .plus
  | 11 => .minus
  | 12 => .greaterOrEqual
  | 13 => .less
  | 14 => .greater
  | _ => .lessOrEqual

def branchName : Condition → String
  | .always => "bra"
  | .never => "brn"
  | .higher => "bhi"
  | .lowerOrSame => "bls"
  | .carryClear => "bcc"
  | .carrySet => "bcs"
  | .notEqual => "bne"
  | .equal => "beq"
  | .overflowClear => "bvc"
  | .overflowSet => "bvs"
  | .plus => "bpl"
  | .minus => "bmi"
  | .greaterOrEqual => "bge"
  | .less => "blt"
  | .greater => "bgt"
  | .lessOrEqual => "ble"

end Condition

inductive Mnemonic where
  | add
  | adds
  | addx
  | and
  | andc
  | band
  | branch (condition : Condition)
  | bclr
  | biand
  | bild
  | bior
  | bist
  | bixor
  | bld
  | bnot
  | bor
  | bset
  | bsr
  | bst
  | btst
  | bxor
  | clrmac
  | cmp
  | daa
  | das
  | dec
  | divxs
  | divxu
  | eepmov
  | exts
  | extu
  | inc
  | jmp
  | jsr
  | ldc
  | ldm
  | ldmac
  | mac
  | mov
  | movfpe
  | movtpe
  | mulxs
  | mulxu
  | neg
  | nop
  | not
  | or
  | orc
  | pop
  | push
  | rotl
  | rotr
  | rotxl
  | rotxr
  | rte
  | rts
  | shal
  | shar
  | shll
  | shlr
  | sleep
  | stc
  | stm
  | stmac
  | sub
  | subs
  | subx
  | tas
  | trapa
  | xor
  | xorc
  deriving DecidableEq, Repr

namespace Mnemonic

def name : Mnemonic → String
  | .add => "add"
  | .adds => "adds"
  | .addx => "addx"
  | .and => "and"
  | .andc => "andc"
  | .band => "band"
  | .branch condition => condition.branchName
  | .bclr => "bclr"
  | .biand => "biand"
  | .bild => "bild"
  | .bior => "bior"
  | .bist => "bist"
  | .bixor => "bixor"
  | .bld => "bld"
  | .bnot => "bnot"
  | .bor => "bor"
  | .bset => "bset"
  | .bsr => "bsr"
  | .bst => "bst"
  | .btst => "btst"
  | .bxor => "bxor"
  | .clrmac => "clrmac"
  | .cmp => "cmp"
  | .daa => "daa"
  | .das => "das"
  | .dec => "dec"
  | .divxs => "divxs"
  | .divxu => "divxu"
  | .eepmov => "eepmov"
  | .exts => "exts"
  | .extu => "extu"
  | .inc => "inc"
  | .jmp => "jmp"
  | .jsr => "jsr"
  | .ldc => "ldc"
  | .ldm => "ldm"
  | .ldmac => "ldmac"
  | .mac => "mac"
  | .mov => "mov"
  | .movfpe => "movfpe"
  | .movtpe => "movtpe"
  | .mulxs => "mulxs"
  | .mulxu => "mulxu"
  | .neg => "neg"
  | .nop => "nop"
  | .not => "not"
  | .or => "or"
  | .orc => "orc"
  | .pop => "pop"
  | .push => "push"
  | .rotl => "rotl"
  | .rotr => "rotr"
  | .rotxl => "rotxl"
  | .rotxr => "rotxr"
  | .rte => "rte"
  | .rts => "rts"
  | .shal => "shal"
  | .shar => "shar"
  | .shll => "shll"
  | .shlr => "shlr"
  | .sleep => "sleep"
  | .stc => "stc"
  | .stm => "stm"
  | .stmac => "stmac"
  | .sub => "sub"
  | .subs => "subs"
  | .subx => "subx"
  | .tas => "tas"
  | .trapa => "trapa"
  | .xor => "xor"
  | .xorc => "xorc"

end Mnemonic

end H8
