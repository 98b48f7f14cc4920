import H8.Encoding.Opcode

/-! The opcode table of the H8/300H and the H8S. -/

set_option autoImplicit false

namespace H8.Encoding

def base (layout : List Piece) (mnemonic : Mnemonic) (width : Option Width) (slots : List Slot) :
    Opcode :=
  ⟨.ofLayout layout, mnemonic, none, width, slots, .h8300h⟩

def extended (layout : List Piece) (mnemonic : Mnemonic) (width : Option Width)
    (slots : List Slot) : Opcode :=
  ⟨.ofLayout layout, mnemonic, none, width, slots, .h8s⟩

def conditional (layout : List Piece) (condition : Char) (slots : List Slot) : Opcode :=
  ⟨.ofLayout layout, .branch .always, some condition, none, slots, .h8300h⟩

def dataTransfer : List Opcode :=
  [base [.byte 0x0C, .field 's' 4, .field 'd' 4] .mov (some .byte) [.reg8 's', .reg8 'd'],
    base [.byte 0x0D, .field 's' 4, .field 'd' 4] .mov (some .word) [.reg16 's', .reg16 'd'],
    base [.byte 0x0F, .bits 1 0b1, .field 's' 3, .bits 1 0b0, .field 'd' 3]
      .mov (some .long) [.reg32 's', .reg32 'd'],
    base [.bits 4 0b1111, .field 'd' 4, .field 'i' 8] .mov (some .byte) [.imm 'i' .byte, .reg8 'd'],
    base [.byte 0x79, .bits 4 0b0000, .field 'd' 4, .field 'i' 16]
      .mov (some .word) [.imm 'i' .word, .reg16 'd'],
    base [.byte 0x7A, .bits 5 0b00000, .field 'd' 3, .field 'i' 32]
      .mov (some .long) [.imm 'i' .long, .reg32 'd'],
    base [.byte 0x68, .bits 1 0b0, .field 's' 3, .field 'd' 4]
      .mov (some .byte) [.ind 's', .reg8 'd'],
    base [.byte 0x68, .bits 1 0b1, .field 'd' 3, .field 's' 4]
      .mov (some .byte) [.reg8 's', .ind 'd'],
    base [.byte 0x69, .bits 1 0b0, .field 's' 3, .field 'd' 4]
      .mov (some .word) [.ind 's', .reg16 'd'],
    base [.byte 0x69, .bits 1 0b1, .field 'd' 3, .field 's' 4]
      .mov (some .word) [.reg16 's', .ind 'd'],
    base [.byte 0x01, .byte 0x00, .byte 0x69, .bits 1 0b0, .field 's' 3, .bits 1 0b0, .field 'd' 3]
      .mov (some .long) [.ind 's', .reg32 'd'],
    base [.byte 0x01, .byte 0x00, .byte 0x69, .bits 1 0b1, .field 'd' 3, .bits 1 0b0, .field 's' 3]
      .mov (some .long) [.reg32 's', .ind 'd'],
    base [.byte 0x6E, .bits 1 0b0, .field 's' 3, .field 'd' 4, .field 'e' 16]
      .mov (some .byte) [.disp16 'e' 's', .reg8 'd'],
    base [.byte 0x6E, .bits 1 0b1, .field 'd' 3, .field 's' 4, .field 'e' 16]
      .mov (some .byte) [.reg8 's', .disp16 'e' 'd'],
    base [.byte 0x6F, .bits 1 0b0, .field 's' 3, .field 'd' 4, .field 'e' 16]
      .mov (some .word) [.disp16 'e' 's', .reg16 'd'],
    base [.byte 0x6F, .bits 1 0b1, .field 'd' 3, .field 's' 4, .field 'e' 16]
      .mov (some .word) [.reg16 's', .disp16 'e' 'd'],
    base [.byte 0x01, .byte 0x00, .byte 0x6F, .bits 1 0b0, .field 's' 3, .bits 1 0b0, .field 'd' 3,
        .field 'e' 16]
      .mov (some .long) [.disp16 'e' 's', .reg32 'd'],
    base [.byte 0x01, .byte 0x00, .byte 0x6F, .bits 1 0b1, .field 'd' 3, .bits 1 0b0, .field 's' 3,
        .field 'e' 16]
      .mov (some .long) [.reg32 's', .disp16 'e' 'd'],
    base [.byte 0x78, .bits 1 0b0, .field 's' 3, .bits 4 0b0000, .byte 0x6A, .bits 4 0b0010,
        .field 'd' 4, .field 'e' 32]
      .mov (some .byte) [.dispLong 'e' 's', .reg8 'd'],
    base [.byte 0x78, .bits 1 0b0, .field 'd' 3, .bits 4 0b0000, .byte 0x6A, .bits 4 0b1010,
        .field 's' 4, .field 'e' 32]
      .mov (some .byte) [.reg8 's', .dispLong 'e' 'd'],
    base [.byte 0x78, .bits 1 0b0, .field 's' 3, .bits 4 0b0000, .byte 0x6B, .bits 4 0b0010,
        .field 'd' 4, .field 'e' 32]
      .mov (some .word) [.dispLong 'e' 's', .reg16 'd'],
    base [.byte 0x78, .bits 1 0b0, .field 'd' 3, .bits 4 0b0000, .byte 0x6B, .bits 4 0b1010,
        .field 's' 4, .field 'e' 32]
      .mov (some .word) [.reg16 's', .dispLong 'e' 'd'],
    base [.byte 0x01, .byte 0x00, .byte 0x78, .bits 1 0b0, .field 's' 3, .bits 4 0b0000,
        .byte 0x6B, .bits 5 0b00100, .field 'd' 3, .field 'e' 32]
      .mov (some .long) [.dispLong 'e' 's', .reg32 'd'],
    base [.byte 0x01, .byte 0x00, .byte 0x78, .bits 1 0b0, .field 'd' 3, .bits 4 0b0000,
        .byte 0x6B, .bits 5 0b10100, .field 's' 3, .field 'e' 32]
      .mov (some .long) [.reg32 's', .dispLong 'e' 'd'],
    base [.byte 0x6C, .bits 1 0b0, .field 's' 3, .field 'd' 4]
      .mov (some .byte) [.postInc 's', .reg8 'd'],
    base [.byte 0x6C, .bits 1 0b1, .field 'd' 3, .field 's' 4]
      .mov (some .byte) [.reg8 's', .preDec 'd'],
    base [.byte 0x6D, .bits 1 0b0, .field 's' 3, .field 'd' 4]
      .mov (some .word) [.postInc 's', .reg16 'd'],
    base [.byte 0x6D, .bits 1 0b1, .field 'd' 3, .field 's' 4]
      .mov (some .word) [.reg16 's', .preDec 'd'],
    base [.byte 0x6D, .bits 4 0b0111, .field 'd' 4] .pop (some .word) [.reg16 'd'],
    base [.byte 0x6D, .bits 4 0b1111, .field 's' 4] .push (some .word) [.reg16 's'],
    base [.byte 0x01, .byte 0x00, .byte 0x6D, .bits 1 0b0, .field 's' 3, .bits 1 0b0, .field 'd' 3]
      .mov (some .long) [.postInc 's', .reg32 'd'],
    base [.byte 0x01, .byte 0x00, .byte 0x6D, .bits 1 0b1, .field 'd' 3, .bits 1 0b0, .field 's' 3]
      .mov (some .long) [.reg32 's', .preDec 'd'],
    base [.byte 0x01, .byte 0x00, .byte 0x6D, .bits 5 0b01110, .field 'd' 3]
      .pop (some .long) [.reg32 'd'],
    base [.byte 0x01, .byte 0x00, .byte 0x6D, .bits 5 0b11110, .field 's' 3]
      .push (some .long) [.reg32 's'],
    base [.bits 4 0b0010, .field 'd' 4, .field 'a' 8] .mov (some .byte) [.abs8 'a', .reg8 'd'],
    base [.bits 4 0b0011, .field 's' 4, .field 'a' 8] .mov (some .byte) [.reg8 's', .abs8 'a'],
    base [.byte 0x6A, .bits 4 0b0000, .field 'd' 4, .field 'a' 16]
      .mov (some .byte) [.abs16 'a', .reg8 'd'],
    base [.byte 0x6A, .bits 4 0b0010, .field 'd' 4, .field 'a' 32]
      .mov (some .byte) [.absLong 'a', .reg8 'd'],
    base [.byte 0x6A, .bits 4 0b1000, .field 's' 4, .field 'a' 16]
      .mov (some .byte) [.reg8 's', .abs16 'a'],
    base [.byte 0x6A, .bits 4 0b1010, .field 's' 4, .field 'a' 32]
      .mov (some .byte) [.reg8 's', .absLong 'a'],
    base [.byte 0x6B, .bits 4 0b0000, .field 'd' 4, .field 'a' 16]
      .mov (some .word) [.abs16 'a', .reg16 'd'],
    base [.byte 0x6B, .bits 4 0b0010, .field 'd' 4, .field 'a' 32]
      .mov (some .word) [.absLong 'a', .reg16 'd'],
    base [.byte 0x6B, .bits 4 0b1000, .field 's' 4, .field 'a' 16]
      .mov (some .word) [.reg16 's', .abs16 'a'],
    base [.byte 0x6B, .bits 4 0b1010, .field 's' 4, .field 'a' 32]
      .mov (some .word) [.reg16 's', .absLong 'a'],
    base [.byte 0x01, .byte 0x00, .byte 0x6B, .bits 5 0b00000, .field 'd' 3, .field 'a' 16]
      .mov (some .long) [.abs16 'a', .reg32 'd'],
    base [.byte 0x01, .byte 0x00, .byte 0x6B, .bits 5 0b00100, .field 'd' 3, .field 'a' 32]
      .mov (some .long) [.absLong 'a', .reg32 'd'],
    base [.byte 0x01, .byte 0x00, .byte 0x6B, .bits 5 0b10000, .field 's' 3, .field 'a' 16]
      .mov (some .long) [.reg32 's', .abs16 'a'],
    base [.byte 0x01, .byte 0x00, .byte 0x6B, .bits 5 0b10100, .field 's' 3, .field 'a' 32]
      .mov (some .long) [.reg32 's', .absLong 'a'],
    base [.byte 0x6A, .bits 4 0b0100, .field 'd' 4, .field 'a' 16]
      .movfpe none [.abs16 'a', .reg8 'd'],
    base [.byte 0x6A, .bits 4 0b1100, .field 's' 4, .field 'a' 16]
      .movtpe none [.reg8 's', .abs16 'a'],
    base [.byte 0x7B, .byte 0x5C, .byte 0x59, .byte 0x8F] .eepmov (some .byte) [],
    base [.byte 0x7B, .byte 0xD4, .byte 0x59, .byte 0x8F] .eepmov (some .word) []]

def arithmetic : List Opcode :=
  [base [.bits 4 0b1000, .field 'd' 4, .field 'i' 8] .add (some .byte) [.imm 'i' .byte, .reg8 'd'],
    base [.byte 0x08, .field 's' 4, .field 'd' 4] .add (some .byte) [.reg8 's', .reg8 'd'],
    base [.byte 0x79, .bits 4 0b0001, .field 'd' 4, .field 'i' 16]
      .add (some .word) [.imm 'i' .word, .reg16 'd'],
    base [.byte 0x09, .field 's' 4, .field 'd' 4] .add (some .word) [.reg16 's', .reg16 'd'],
    base [.byte 0x7A, .bits 5 0b00010, .field 'd' 3, .field 'i' 32]
      .add (some .long) [.imm 'i' .long, .reg32 'd'],
    base [.byte 0x0A, .bits 1 0b1, .field 's' 3, .bits 1 0b0, .field 'd' 3]
      .add (some .long) [.reg32 's', .reg32 'd'],
    base [.byte 0x0B, .bits 5 0b00000, .field 'd' 3] .adds none [.const 1, .reg32 'd'],
    base [.byte 0x0B, .bits 5 0b10000, .field 'd' 3] .adds none [.const 2, .reg32 'd'],
    base [.byte 0x0B, .bits 5 0b10010, .field 'd' 3] .adds none [.const 4, .reg32 'd'],
    base [.bits 4 0b1001, .field 'd' 4, .field 'i' 8] .addx none [.imm 'i' .byte, .reg8 'd'],
    base [.byte 0x0E, .field 's' 4, .field 'd' 4] .addx none [.reg8 's', .reg8 'd'],
    base [.byte 0x0F, .bits 4 0b0000, .field 'd' 4] .daa none [.reg8 'd'],
    base [.byte 0x0A, .bits 4 0b0000, .field 'd' 4] .inc (some .byte) [.reg8 'd'],
    base [.byte 0x0B, .bits 4 0b0101, .field 'd' 4] .inc (some .word) [.const 1, .reg16 'd'],
    base [.byte 0x0B, .bits 4 0b1101, .field 'd' 4] .inc (some .word) [.const 2, .reg16 'd'],
    base [.byte 0x0B, .bits 5 0b01110, .field 'd' 3] .inc (some .long) [.const 1, .reg32 'd'],
    base [.byte 0x0B, .bits 5 0b11110, .field 'd' 3] .inc (some .long) [.const 2, .reg32 'd'],
    base [.byte 0x18, .field 's' 4, .field 'd' 4] .sub (some .byte) [.reg8 's', .reg8 'd'],
    base [.byte 0x79, .bits 4 0b0011, .field 'd' 4, .field 'i' 16]
      .sub (some .word) [.imm 'i' .word, .reg16 'd'],
    base [.byte 0x19, .field 's' 4, .field 'd' 4] .sub (some .word) [.reg16 's', .reg16 'd'],
    base [.byte 0x7A, .bits 5 0b00110, .field 'd' 3, .field 'i' 32]
      .sub (some .long) [.imm 'i' .long, .reg32 'd'],
    base [.byte 0x1A, .bits 1 0b1, .field 's' 3, .bits 1 0b0, .field 'd' 3]
      .sub (some .long) [.reg32 's', .reg32 'd'],
    base [.byte 0x1B, .bits 5 0b00000, .field 'd' 3] .subs none [.const 1, .reg32 'd'],
    base [.byte 0x1B, .bits 5 0b10000, .field 'd' 3] .subs none [.const 2, .reg32 'd'],
    base [.byte 0x1B, .bits 5 0b10010, .field 'd' 3] .subs none [.const 4, .reg32 'd'],
    base [.bits 4 0b1011, .field 'd' 4, .field 'i' 8] .subx none [.imm 'i' .byte, .reg8 'd'],
    base [.byte 0x1E, .field 's' 4, .field 'd' 4] .subx none [.reg8 's', .reg8 'd'],
    base [.byte 0x1F, .bits 4 0b0000, .field 'd' 4] .das none [.reg8 'd'],
    base [.byte 0x1A, .bits 4 0b0000, .field 'd' 4] .dec (some .byte) [.reg8 'd'],
    base [.byte 0x1B, .bits 4 0b0101, .field 'd' 4] .dec (some .word) [.const 1, .reg16 'd'],
    base [.byte 0x1B, .bits 4 0b1101, .field 'd' 4] .dec (some .word) [.const 2, .reg16 'd'],
    base [.byte 0x1B, .bits 5 0b01110, .field 'd' 3] .dec (some .long) [.const 1, .reg32 'd'],
    base [.byte 0x1B, .bits 5 0b11110, .field 'd' 3] .dec (some .long) [.const 2, .reg32 'd'],
    base [.bits 4 0b1010, .field 'd' 4, .field 'i' 8] .cmp (some .byte) [.imm 'i' .byte, .reg8 'd'],
    base [.byte 0x1C, .field 's' 4, .field 'd' 4] .cmp (some .byte) [.reg8 's', .reg8 'd'],
    base [.byte 0x79, .bits 4 0b0010, .field 'd' 4, .field 'i' 16]
      .cmp (some .word) [.imm 'i' .word, .reg16 'd'],
    base [.byte 0x1D, .field 's' 4, .field 'd' 4] .cmp (some .word) [.reg16 's', .reg16 'd'],
    base [.byte 0x7A, .bits 5 0b00100, .field 'd' 3, .field 'i' 32]
      .cmp (some .long) [.imm 'i' .long, .reg32 'd'],
    base [.byte 0x1F, .bits 1 0b1, .field 's' 3, .bits 1 0b0, .field 'd' 3]
      .cmp (some .long) [.reg32 's', .reg32 'd'],
    base [.byte 0x17, .bits 4 0b1000, .field 'd' 4] .neg (some .byte) [.reg8 'd'],
    base [.byte 0x17, .bits 4 0b1001, .field 'd' 4] .neg (some .word) [.reg16 'd'],
    base [.byte 0x17, .bits 5 0b10110, .field 'd' 3] .neg (some .long) [.reg32 'd'],
    base [.byte 0x17, .bits 4 0b0101, .field 'd' 4] .extu (some .word) [.reg16 'd'],
    base [.byte 0x17, .bits 5 0b01110, .field 'd' 3] .extu (some .long) [.reg32 'd'],
    base [.byte 0x17, .bits 4 0b1101, .field 'd' 4] .exts (some .word) [.reg16 'd'],
    base [.byte 0x17, .bits 5 0b11110, .field 'd' 3] .exts (some .long) [.reg32 'd'],
    base [.byte 0x50, .field 's' 4, .field 'd' 4] .mulxu (some .byte) [.reg8 's', .reg16 'd'],
    base [.byte 0x52, .field 's' 4, .bits 1 0b0, .field 'd' 3]
      .mulxu (some .word) [.reg16 's', .reg32 'd'],
    base [.byte 0x51, .field 's' 4, .field 'd' 4] .divxu (some .byte) [.reg8 's', .reg16 'd'],
    base [.byte 0x53, .field 's' 4, .bits 1 0b0, .field 'd' 3]
      .divxu (some .word) [.reg16 's', .reg32 'd'],
    base [.byte 0x01, .byte 0xC0, .byte 0x50, .field 's' 4, .field 'd' 4]
      .mulxs (some .byte) [.reg8 's', .reg16 'd'],
    base [.byte 0x01, .byte 0xC0, .byte 0x52, .field 's' 4, .bits 1 0b0, .field 'd' 3]
      .mulxs (some .word) [.reg16 's', .reg32 'd'],
    base [.byte 0x01, .byte 0xD0, .byte 0x51, .field 's' 4, .field 'd' 4]
      .divxs (some .byte) [.reg8 's', .reg16 'd'],
    base [.byte 0x01, .byte 0xD0, .byte 0x53, .field 's' 4, .bits 1 0b0, .field 'd' 3]
      .divxs (some .word) [.reg16 's', .reg32 'd']]

def logic : List Opcode :=
  [base [.bits 4 0b1110, .field 'd' 4, .field 'i' 8] .and (some .byte) [.imm 'i' .byte, .reg8 'd'],
    base [.byte 0x16, .field 's' 4, .field 'd' 4] .and (some .byte) [.reg8 's', .reg8 'd'],
    base [.byte 0x79, .bits 4 0b0110, .field 'd' 4, .field 'i' 16]
      .and (some .word) [.imm 'i' .word, .reg16 'd'],
    base [.byte 0x66, .field 's' 4, .field 'd' 4] .and (some .word) [.reg16 's', .reg16 'd'],
    base [.byte 0x7A, .bits 5 0b01100, .field 'd' 3, .field 'i' 32]
      .and (some .long) [.imm 'i' .long, .reg32 'd'],
    base [.byte 0x01, .byte 0xF0, .byte 0x66, .bits 1 0b0, .field 's' 3, .bits 1 0b0, .field 'd' 3]
      .and (some .long) [.reg32 's', .reg32 'd'],
    base [.bits 4 0b1100, .field 'd' 4, .field 'i' 8] .or (some .byte) [.imm 'i' .byte, .reg8 'd'],
    base [.byte 0x14, .field 's' 4, .field 'd' 4] .or (some .byte) [.reg8 's', .reg8 'd'],
    base [.byte 0x79, .bits 4 0b0100, .field 'd' 4, .field 'i' 16]
      .or (some .word) [.imm 'i' .word, .reg16 'd'],
    base [.byte 0x64, .field 's' 4, .field 'd' 4] .or (some .word) [.reg16 's', .reg16 'd'],
    base [.byte 0x7A, .bits 5 0b01000, .field 'd' 3, .field 'i' 32]
      .or (some .long) [.imm 'i' .long, .reg32 'd'],
    base [.byte 0x01, .byte 0xF0, .byte 0x64, .bits 1 0b0, .field 's' 3, .bits 1 0b0, .field 'd' 3]
      .or (some .long) [.reg32 's', .reg32 'd'],
    base [.bits 4 0b1101, .field 'd' 4, .field 'i' 8] .xor (some .byte) [.imm 'i' .byte, .reg8 'd'],
    base [.byte 0x15, .field 's' 4, .field 'd' 4] .xor (some .byte) [.reg8 's', .reg8 'd'],
    base [.byte 0x79, .bits 4 0b0101, .field 'd' 4, .field 'i' 16]
      .xor (some .word) [.imm 'i' .word, .reg16 'd'],
    base [.byte 0x65, .field 's' 4, .field 'd' 4] .xor (some .word) [.reg16 's', .reg16 'd'],
    base [.byte 0x7A, .bits 5 0b01010, .field 'd' 3, .field 'i' 32]
      .xor (some .long) [.imm 'i' .long, .reg32 'd'],
    base [.byte 0x01, .byte 0xF0, .byte 0x65, .bits 1 0b0, .field 's' 3, .bits 1 0b0, .field 'd' 3]
      .xor (some .long) [.reg32 's', .reg32 'd'],
    base [.byte 0x17, .bits 4 0b0000, .field 'd' 4] .not (some .byte) [.reg8 'd'],
    base [.byte 0x17, .bits 4 0b0001, .field 'd' 4] .not (some .word) [.reg16 'd'],
    base [.byte 0x17, .bits 5 0b00110, .field 'd' 3] .not (some .long) [.reg32 'd']]

def shifts : List Opcode :=
  [base [.byte 0x10, .bits 4 0b0000, .field 'd' 4] .shll (some .byte) [.reg8 'd'],
    base [.byte 0x10, .bits 4 0b0001, .field 'd' 4] .shll (some .word) [.reg16 'd'],
    base [.byte 0x10, .bits 5 0b00110, .field 'd' 3] .shll (some .long) [.reg32 'd'],
    base [.byte 0x10, .bits 4 0b1000, .field 'd' 4] .shal (some .byte) [.reg8 'd'],
    base [.byte 0x10, .bits 4 0b1001, .field 'd' 4] .shal (some .word) [.reg16 'd'],
    base [.byte 0x10, .bits 5 0b10110, .field 'd' 3] .shal (some .long) [.reg32 'd'],
    base [.byte 0x11, .bits 4 0b0000, .field 'd' 4] .shlr (some .byte) [.reg8 'd'],
    base [.byte 0x11, .bits 4 0b0001, .field 'd' 4] .shlr (some .word) [.reg16 'd'],
    base [.byte 0x11, .bits 5 0b00110, .field 'd' 3] .shlr (some .long) [.reg32 'd'],
    base [.byte 0x11, .bits 4 0b1000, .field 'd' 4] .shar (some .byte) [.reg8 'd'],
    base [.byte 0x11, .bits 4 0b1001, .field 'd' 4] .shar (some .word) [.reg16 'd'],
    base [.byte 0x11, .bits 5 0b10110, .field 'd' 3] .shar (some .long) [.reg32 'd'],
    base [.byte 0x12, .bits 4 0b0000, .field 'd' 4] .rotxl (some .byte) [.reg8 'd'],
    base [.byte 0x12, .bits 4 0b0001, .field 'd' 4] .rotxl (some .word) [.reg16 'd'],
    base [.byte 0x12, .bits 5 0b00110, .field 'd' 3] .rotxl (some .long) [.reg32 'd'],
    base [.byte 0x12, .bits 4 0b1000, .field 'd' 4] .rotl (some .byte) [.reg8 'd'],
    base [.byte 0x12, .bits 4 0b1001, .field 'd' 4] .rotl (some .word) [.reg16 'd'],
    base [.byte 0x12, .bits 5 0b10110, .field 'd' 3] .rotl (some .long) [.reg32 'd'],
    base [.byte 0x13, .bits 4 0b0000, .field 'd' 4] .rotxr (some .byte) [.reg8 'd'],
    base [.byte 0x13, .bits 4 0b0001, .field 'd' 4] .rotxr (some .word) [.reg16 'd'],
    base [.byte 0x13, .bits 5 0b00110, .field 'd' 3] .rotxr (some .long) [.reg32 'd'],
    base [.byte 0x13, .bits 4 0b1000, .field 'd' 4] .rotr (some .byte) [.reg8 'd'],
    base [.byte 0x13, .bits 4 0b1001, .field 'd' 4] .rotr (some .word) [.reg16 'd'],
    base [.byte 0x13, .bits 5 0b10110, .field 'd' 3] .rotr (some .long) [.reg32 'd'],
    extended [.byte 0x10, .bits 4 0b0100, .field 'd' 4] .shll (some .byte) [.const 2, .reg8 'd'],
    extended [.byte 0x10, .bits 4 0b0101, .field 'd' 4] .shll (some .word) [.const 2, .reg16 'd'],
    extended [.byte 0x10, .bits 5 0b01110, .field 'd' 3] .shll (some .long) [.const 2, .reg32 'd'],
    extended [.byte 0x10, .bits 4 0b1100, .field 'd' 4] .shal (some .byte) [.const 2, .reg8 'd'],
    extended [.byte 0x10, .bits 4 0b1101, .field 'd' 4] .shal (some .word) [.const 2, .reg16 'd'],
    extended [.byte 0x10, .bits 5 0b11110, .field 'd' 3] .shal (some .long) [.const 2, .reg32 'd'],
    extended [.byte 0x11, .bits 4 0b0100, .field 'd' 4] .shlr (some .byte) [.const 2, .reg8 'd'],
    extended [.byte 0x11, .bits 4 0b0101, .field 'd' 4] .shlr (some .word) [.const 2, .reg16 'd'],
    extended [.byte 0x11, .bits 5 0b01110, .field 'd' 3] .shlr (some .long) [.const 2, .reg32 'd'],
    extended [.byte 0x11, .bits 4 0b1100, .field 'd' 4] .shar (some .byte) [.const 2, .reg8 'd'],
    extended [.byte 0x11, .bits 4 0b1101, .field 'd' 4] .shar (some .word) [.const 2, .reg16 'd'],
    extended [.byte 0x11, .bits 5 0b11110, .field 'd' 3] .shar (some .long) [.const 2, .reg32 'd'],
    extended [.byte 0x12, .bits 4 0b0100, .field 'd' 4] .rotxl (some .byte) [.const 2, .reg8 'd'],
    extended [.byte 0x12, .bits 4 0b0101, .field 'd' 4] .rotxl (some .word) [.const 2, .reg16 'd'],
    extended [.byte 0x12, .bits 5 0b01110, .field 'd' 3] .rotxl (some .long) [.const 2, .reg32 'd'],
    extended [.byte 0x12, .bits 4 0b1100, .field 'd' 4] .rotl (some .byte) [.const 2, .reg8 'd'],
    extended [.byte 0x12, .bits 4 0b1101, .field 'd' 4] .rotl (some .word) [.const 2, .reg16 'd'],
    extended [.byte 0x12, .bits 5 0b11110, .field 'd' 3] .rotl (some .long) [.const 2, .reg32 'd'],
    extended [.byte 0x13, .bits 4 0b0100, .field 'd' 4] .rotxr (some .byte) [.const 2, .reg8 'd'],
    extended [.byte 0x13, .bits 4 0b0101, .field 'd' 4] .rotxr (some .word) [.const 2, .reg16 'd'],
    extended [.byte 0x13, .bits 5 0b01110, .field 'd' 3] .rotxr (some .long) [.const 2, .reg32 'd'],
    extended [.byte 0x13, .bits 4 0b1100, .field 'd' 4] .rotr (some .byte) [.const 2, .reg8 'd'],
    extended [.byte 0x13, .bits 4 0b1101, .field 'd' 4] .rotr (some .word) [.const 2, .reg16 'd'],
    extended [.byte 0x13, .bits 5 0b11110, .field 'd' 3] .rotr (some .long) [.const 2, .reg32 'd']]

def registerBits : List Opcode :=
  [base [.byte 0x70, .bits 1 0b0, .field 'b' 3, .field 'd' 4] .bset none [.bit 'b', .reg8 'd'],
    base [.byte 0x71, .bits 1 0b0, .field 'b' 3, .field 'd' 4] .bnot none [.bit 'b', .reg8 'd'],
    base [.byte 0x72, .bits 1 0b0, .field 'b' 3, .field 'd' 4] .bclr none [.bit 'b', .reg8 'd'],
    base [.byte 0x73, .bits 1 0b0, .field 'b' 3, .field 'd' 4] .btst none [.bit 'b', .reg8 'd'],
    base [.byte 0x60, .field 'n' 4, .field 'd' 4] .bset none [.reg8 'n', .reg8 'd'],
    base [.byte 0x61, .field 'n' 4, .field 'd' 4] .bnot none [.reg8 'n', .reg8 'd'],
    base [.byte 0x62, .field 'n' 4, .field 'd' 4] .bclr none [.reg8 'n', .reg8 'd'],
    base [.byte 0x63, .field 'n' 4, .field 'd' 4] .btst none [.reg8 'n', .reg8 'd'],
    base [.byte 0x74, .bits 1 0b0, .field 'b' 3, .field 'd' 4] .bor none [.bit 'b', .reg8 'd'],
    base [.byte 0x74, .bits 1 0b1, .field 'b' 3, .field 'd' 4] .bior none [.bit 'b', .reg8 'd'],
    base [.byte 0x75, .bits 1 0b0, .field 'b' 3, .field 'd' 4] .bxor none [.bit 'b', .reg8 'd'],
    base [.byte 0x75, .bits 1 0b1, .field 'b' 3, .field 'd' 4] .bixor none [.bit 'b', .reg8 'd'],
    base [.byte 0x76, .bits 1 0b0, .field 'b' 3, .field 'd' 4] .band none [.bit 'b', .reg8 'd'],
    base [.byte 0x76, .bits 1 0b1, .field 'b' 3, .field 'd' 4] .biand none [.bit 'b', .reg8 'd'],
    base [.byte 0x77, .bits 1 0b0, .field 'b' 3, .field 'd' 4] .bld none [.bit 'b', .reg8 'd'],
    base [.byte 0x77, .bits 1 0b1, .field 'b' 3, .field 'd' 4] .bild none [.bit 'b', .reg8 'd'],
    base [.byte 0x67, .bits 1 0b0, .field 'b' 3, .field 'd' 4] .bst none [.bit 'b', .reg8 'd'],
    base [.byte 0x67, .bits 1 0b1, .field 'b' 3, .field 'd' 4] .bist none [.bit 'b', .reg8 'd']]

def indirectBits : List Opcode :=
  [base [.byte 0x7C, .bits 1 0b0, .field 'd' 3, .bits 4 0b0000, .byte 0x73, .bits 1 0b0,
        .field 'b' 3, .bits 4 0b0000]
      .btst none [.bit 'b', .ind 'd'],
    base [.byte 0x7C, .bits 1 0b0, .field 'd' 3, .bits 4 0b0000, .byte 0x63, .field 'n' 4,
        .bits 4 0b0000]
      .btst none [.reg8 'n', .ind 'd'],
    base [.byte 0x7C, .bits 1 0b0, .field 'd' 3, .bits 4 0b0000, .byte 0x74, .bits 1 0b0,
        .field 'b' 3, .bits 4 0b0000]
      .bor none [.bit 'b', .ind 'd'],
    base [.byte 0x7C, .bits 1 0b0, .field 'd' 3, .bits 4 0b0000, .byte 0x74, .bits 1 0b1,
        .field 'b' 3, .bits 4 0b0000]
      .bior none [.bit 'b', .ind 'd'],
    base [.byte 0x7C, .bits 1 0b0, .field 'd' 3, .bits 4 0b0000, .byte 0x75, .bits 1 0b0,
        .field 'b' 3, .bits 4 0b0000]
      .bxor none [.bit 'b', .ind 'd'],
    base [.byte 0x7C, .bits 1 0b0, .field 'd' 3, .bits 4 0b0000, .byte 0x75, .bits 1 0b1,
        .field 'b' 3, .bits 4 0b0000]
      .bixor none [.bit 'b', .ind 'd'],
    base [.byte 0x7C, .bits 1 0b0, .field 'd' 3, .bits 4 0b0000, .byte 0x76, .bits 1 0b0,
        .field 'b' 3, .bits 4 0b0000]
      .band none [.bit 'b', .ind 'd'],
    base [.byte 0x7C, .bits 1 0b0, .field 'd' 3, .bits 4 0b0000, .byte 0x76, .bits 1 0b1,
        .field 'b' 3, .bits 4 0b0000]
      .biand none [.bit 'b', .ind 'd'],
    base [.byte 0x7C, .bits 1 0b0, .field 'd' 3, .bits 4 0b0000, .byte 0x77, .bits 1 0b0,
        .field 'b' 3, .bits 4 0b0000]
      .bld none [.bit 'b', .ind 'd'],
    base [.byte 0x7C, .bits 1 0b0, .field 'd' 3, .bits 4 0b0000, .byte 0x77, .bits 1 0b1,
        .field 'b' 3, .bits 4 0b0000]
      .bild none [.bit 'b', .ind 'd'],
    base [.byte 0x7D, .bits 1 0b0, .field 'd' 3, .bits 4 0b0000, .byte 0x70, .bits 1 0b0,
        .field 'b' 3, .bits 4 0b0000]
      .bset none [.bit 'b', .ind 'd'],
    base [.byte 0x7D, .bits 1 0b0, .field 'd' 3, .bits 4 0b0000, .byte 0x71, .bits 1 0b0,
        .field 'b' 3, .bits 4 0b0000]
      .bnot none [.bit 'b', .ind 'd'],
    base [.byte 0x7D, .bits 1 0b0, .field 'd' 3, .bits 4 0b0000, .byte 0x72, .bits 1 0b0,
        .field 'b' 3, .bits 4 0b0000]
      .bclr none [.bit 'b', .ind 'd'],
    base [.byte 0x7D, .bits 1 0b0, .field 'd' 3, .bits 4 0b0000, .byte 0x60, .field 'n' 4,
        .bits 4 0b0000]
      .bset none [.reg8 'n', .ind 'd'],
    base [.byte 0x7D, .bits 1 0b0, .field 'd' 3, .bits 4 0b0000, .byte 0x61, .field 'n' 4,
        .bits 4 0b0000]
      .bnot none [.reg8 'n', .ind 'd'],
    base [.byte 0x7D, .bits 1 0b0, .field 'd' 3, .bits 4 0b0000, .byte 0x62, .field 'n' 4,
        .bits 4 0b0000]
      .bclr none [.reg8 'n', .ind 'd'],
    base [.byte 0x7D, .bits 1 0b0, .field 'd' 3, .bits 4 0b0000, .byte 0x67, .bits 1 0b0,
        .field 'b' 3, .bits 4 0b0000]
      .bst none [.bit 'b', .ind 'd'],
    base [.byte 0x7D, .bits 1 0b0, .field 'd' 3, .bits 4 0b0000, .byte 0x67, .bits 1 0b1,
        .field 'b' 3, .bits 4 0b0000]
      .bist none [.bit 'b', .ind 'd']]

def absoluteBits : List Opcode :=
  [base [.byte 0x7E, .field 'a' 8, .byte 0x73, .bits 1 0b0, .field 'b' 3, .bits 4 0b0000]
      .btst none [.bit 'b', .abs8 'a'],
    base [.byte 0x7E, .field 'a' 8, .byte 0x63, .field 'n' 4, .bits 4 0b0000]
      .btst none [.reg8 'n', .abs8 'a'],
    base [.byte 0x7E, .field 'a' 8, .byte 0x74, .bits 1 0b0, .field 'b' 3, .bits 4 0b0000]
      .bor none [.bit 'b', .abs8 'a'],
    base [.byte 0x7E, .field 'a' 8, .byte 0x74, .bits 1 0b1, .field 'b' 3, .bits 4 0b0000]
      .bior none [.bit 'b', .abs8 'a'],
    base [.byte 0x7E, .field 'a' 8, .byte 0x75, .bits 1 0b0, .field 'b' 3, .bits 4 0b0000]
      .bxor none [.bit 'b', .abs8 'a'],
    base [.byte 0x7E, .field 'a' 8, .byte 0x75, .bits 1 0b1, .field 'b' 3, .bits 4 0b0000]
      .bixor none [.bit 'b', .abs8 'a'],
    base [.byte 0x7E, .field 'a' 8, .byte 0x76, .bits 1 0b0, .field 'b' 3, .bits 4 0b0000]
      .band none [.bit 'b', .abs8 'a'],
    base [.byte 0x7E, .field 'a' 8, .byte 0x76, .bits 1 0b1, .field 'b' 3, .bits 4 0b0000]
      .biand none [.bit 'b', .abs8 'a'],
    base [.byte 0x7E, .field 'a' 8, .byte 0x77, .bits 1 0b0, .field 'b' 3, .bits 4 0b0000]
      .bld none [.bit 'b', .abs8 'a'],
    base [.byte 0x7E, .field 'a' 8, .byte 0x77, .bits 1 0b1, .field 'b' 3, .bits 4 0b0000]
      .bild none [.bit 'b', .abs8 'a'],
    base [.byte 0x7F, .field 'a' 8, .byte 0x70, .bits 1 0b0, .field 'b' 3, .bits 4 0b0000]
      .bset none [.bit 'b', .abs8 'a'],
    base [.byte 0x7F, .field 'a' 8, .byte 0x71, .bits 1 0b0, .field 'b' 3, .bits 4 0b0000]
      .bnot none [.bit 'b', .abs8 'a'],
    base [.byte 0x7F, .field 'a' 8, .byte 0x72, .bits 1 0b0, .field 'b' 3, .bits 4 0b0000]
      .bclr none [.bit 'b', .abs8 'a'],
    base [.byte 0x7F, .field 'a' 8, .byte 0x60, .field 'n' 4, .bits 4 0b0000]
      .bset none [.reg8 'n', .abs8 'a'],
    base [.byte 0x7F, .field 'a' 8, .byte 0x61, .field 'n' 4, .bits 4 0b0000]
      .bnot none [.reg8 'n', .abs8 'a'],
    base [.byte 0x7F, .field 'a' 8, .byte 0x62, .field 'n' 4, .bits 4 0b0000]
      .bclr none [.reg8 'n', .abs8 'a'],
    base [.byte 0x7F, .field 'a' 8, .byte 0x67, .bits 1 0b0, .field 'b' 3, .bits 4 0b0000]
      .bst none [.bit 'b', .abs8 'a'],
    base [.byte 0x7F, .field 'a' 8, .byte 0x67, .bits 1 0b1, .field 'b' 3, .bits 4 0b0000]
      .bist none [.bit 'b', .abs8 'a']]

def branches : List Opcode :=
  [conditional [.bits 4 0b0100, .field 'c' 4, .field 'p' 8] 'c' [.rel8 'p'],
    conditional [.byte 0x58, .field 'c' 4, .bits 4 0b0000, .field 'p' 16] 'c' [.rel16 'p'],
    base [.byte 0x55, .field 'p' 8] .bsr none [.rel8 'p'],
    base [.byte 0x5C, .byte 0x00, .field 'p' 16] .bsr none [.rel16 'p'],
    base [.byte 0x59, .bits 1 0b0, .field 's' 3, .bits 4 0b0000] .jmp none [.ind 's'],
    base [.byte 0x5A, .field 'a' 24] .jmp none [.abs24 'a'],
    base [.byte 0x5B, .field 'v' 8] .jmp none [.vector 'v'],
    base [.byte 0x5D, .bits 1 0b0, .field 's' 3, .bits 4 0b0000] .jsr none [.ind 's'],
    base [.byte 0x5E, .field 'a' 24] .jsr none [.abs24 'a'],
    base [.byte 0x5F, .field 'v' 8] .jsr none [.vector 'v'],
    base [.byte 0x54, .byte 0x70] .rts none [],
    base [.byte 0x56, .byte 0x70] .rte none []]

def systemControl : List Opcode :=
  [base [.byte 0x57, .bits 2 0b00, .field 'v' 2, .bits 4 0b0000] .trapa none [.imm 'v' .byte],
    base [.byte 0x01, .byte 0x80] .sleep none [],
    base [.byte 0x00, .byte 0x00] .nop none [],
    base [.byte 0x07, .field 'i' 8] .ldc (some .byte) [.imm 'i' .byte, .control .ccr],
    base [.byte 0x01, .byte 0x41, .byte 0x07, .field 'i' 8]
      .ldc (some .byte) [.imm 'i' .byte, .control .exr],
    base [.byte 0x03, .bits 4 0b0000, .field 's' 4] .ldc (some .byte) [.reg8 's', .control .ccr],
    base [.byte 0x03, .bits 4 0b0001, .field 's' 4] .ldc (some .byte) [.reg8 's', .control .exr],
    base [.byte 0x02, .bits 4 0b0000, .field 'd' 4] .stc (some .byte) [.control .ccr, .reg8 'd'],
    base [.byte 0x02, .bits 4 0b0001, .field 'd' 4] .stc (some .byte) [.control .exr, .reg8 'd'],
    base [.byte 0x06, .field 'i' 8] .andc none [.imm 'i' .byte, .control .ccr],
    base [.byte 0x01, .byte 0x41, .byte 0x06, .field 'i' 8]
      .andc none [.imm 'i' .byte, .control .exr],
    base [.byte 0x04, .field 'i' 8] .orc none [.imm 'i' .byte, .control .ccr],
    base [.byte 0x01, .byte 0x41, .byte 0x04, .field 'i' 8]
      .orc none [.imm 'i' .byte, .control .exr],
    base [.byte 0x05, .field 'i' 8] .xorc none [.imm 'i' .byte, .control .ccr],
    base [.byte 0x01, .byte 0x41, .byte 0x05, .field 'i' 8]
      .xorc none [.imm 'i' .byte, .control .exr],
    base [.byte 0x01, .byte 0x40, .byte 0x69, .bits 1 0b0, .field 's' 3, .bits 4 0b0000]
      .ldc (some .word) [.ind 's', .control .ccr],
    base [.byte 0x01, .byte 0x40, .byte 0x6F, .bits 1 0b0, .field 's' 3, .bits 4 0b0000,
        .field 'e' 16]
      .ldc (some .word) [.disp16 'e' 's', .control .ccr],
    base [.byte 0x01, .byte 0x40, .byte 0x78, .bits 1 0b0, .field 's' 3, .bits 4 0b0000,
        .byte 0x6B, .byte 0x20, .field 'e' 32]
      .ldc (some .word) [.dispLong 'e' 's', .control .ccr],
    base [.byte 0x01, .byte 0x40, .byte 0x6D, .bits 1 0b0, .field 's' 3, .bits 4 0b0000]
      .ldc (some .word) [.postInc 's', .control .ccr],
    base [.byte 0x01, .byte 0x40, .byte 0x6B, .byte 0x00, .field 'a' 16]
      .ldc (some .word) [.abs16 'a', .control .ccr],
    base [.byte 0x01, .byte 0x40, .byte 0x6B, .byte 0x20, .field 'a' 32]
      .ldc (some .word) [.absLong 'a', .control .ccr],
    base [.byte 0x01, .byte 0x40, .byte 0x69, .bits 1 0b1, .field 'd' 3, .bits 4 0b0000]
      .stc (some .word) [.control .ccr, .ind 'd'],
    base [.byte 0x01, .byte 0x40, .byte 0x6F, .bits 1 0b1, .field 'd' 3, .bits 4 0b0000,
        .field 'e' 16]
      .stc (some .word) [.control .ccr, .disp16 'e' 'd'],
    base [.byte 0x01, .byte 0x40, .byte 0x78, .bits 1 0b0, .field 'd' 3, .bits 4 0b0000,
        .byte 0x6B, .byte 0xA0, .field 'e' 32]
      .stc (some .word) [.control .ccr, .dispLong 'e' 'd'],
    base [.byte 0x01, .byte 0x40, .byte 0x6D, .bits 1 0b1, .field 'd' 3, .bits 4 0b0000]
      .stc (some .word) [.control .ccr, .preDec 'd'],
    base [.byte 0x01, .byte 0x40, .byte 0x6B, .byte 0x80, .field 'a' 16]
      .stc (some .word) [.control .ccr, .abs16 'a'],
    base [.byte 0x01, .byte 0x40, .byte 0x6B, .byte 0xA0, .field 'a' 32]
      .stc (some .word) [.control .ccr, .absLong 'a'],
    base [.byte 0x01, .byte 0x41, .byte 0x69, .bits 1 0b0, .field 's' 3, .bits 4 0b0000]
      .ldc (some .word) [.ind 's', .control .exr],
    base [.byte 0x01, .byte 0x41, .byte 0x6F, .bits 1 0b0, .field 's' 3, .bits 4 0b0000,
        .field 'e' 16]
      .ldc (some .word) [.disp16 'e' 's', .control .exr],
    base [.byte 0x01, .byte 0x41, .byte 0x78, .bits 1 0b0, .field 's' 3, .bits 4 0b0000,
        .byte 0x6B, .byte 0x20, .field 'e' 32]
      .ldc (some .word) [.dispLong 'e' 's', .control .exr],
    base [.byte 0x01, .byte 0x41, .byte 0x6D, .bits 1 0b0, .field 's' 3, .bits 4 0b0000]
      .ldc (some .word) [.postInc 's', .control .exr],
    base [.byte 0x01, .byte 0x41, .byte 0x6B, .byte 0x00, .field 'a' 16]
      .ldc (some .word) [.abs16 'a', .control .exr],
    base [.byte 0x01, .byte 0x41, .byte 0x6B, .byte 0x20, .field 'a' 32]
      .ldc (some .word) [.absLong 'a', .control .exr],
    base [.byte 0x01, .byte 0x41, .byte 0x69, .bits 1 0b1, .field 'd' 3, .bits 4 0b0000]
      .stc (some .word) [.control .exr, .ind 'd'],
    base [.byte 0x01, .byte 0x41, .byte 0x6F, .bits 1 0b1, .field 'd' 3, .bits 4 0b0000,
        .field 'e' 16]
      .stc (some .word) [.control .exr, .disp16 'e' 'd'],
    base [.byte 0x01, .byte 0x41, .byte 0x78, .bits 1 0b0, .field 'd' 3, .bits 4 0b0000,
        .byte 0x6B, .byte 0xA0, .field 'e' 32]
      .stc (some .word) [.control .exr, .dispLong 'e' 'd'],
    base [.byte 0x01, .byte 0x41, .byte 0x6D, .bits 1 0b1, .field 'd' 3, .bits 4 0b0000]
      .stc (some .word) [.control .exr, .preDec 'd'],
    base [.byte 0x01, .byte 0x41, .byte 0x6B, .byte 0x80, .field 'a' 16]
      .stc (some .word) [.control .exr, .abs16 'a'],
    base [.byte 0x01, .byte 0x41, .byte 0x6B, .byte 0xA0, .field 'a' 32]
      .stc (some .word) [.control .exr, .absLong 'a']]

def extensions : List Opcode :=
  [extended [.byte 0x01, .bits 2 0b00, .field 'k' 2, .bits 4 0b0000, .byte 0x6D, .bits 5 0b01110,
        .field 'n' 3]
      .ldm (some .long) [.popped, .listTo 'n' 'k'],
    extended [.byte 0x01, .bits 2 0b00, .field 'k' 2, .bits 4 0b0000, .byte 0x6D, .bits 5 0b11110,
        .field 'n' 3]
      .stm (some .long) [.listFrom 'n' 'k', .pushed],
    extended [.byte 0x01, .byte 0xE0, .byte 0x7B, .bits 1 0b0, .field 'd' 3, .bits 4 0b1100]
      .tas none [.ind 'd'],
    extended [.byte 0x01, .byte 0xA0] .clrmac none [],
    extended [.byte 0x01, .byte 0x60, .byte 0x6D, .bits 1 0b0, .field 's' 3, .bits 1 0b0,
        .field 'd' 3]
      .mac none [.postInc 's', .postInc 'd'],
    base [.byte 0x03, .bits 5 0b00100, .field 's' 3] .ldmac none [.reg32 's', .control .mach],
    base [.byte 0x03, .bits 5 0b00110, .field 's' 3] .ldmac none [.reg32 's', .control .macl],
    base [.byte 0x02, .bits 5 0b00100, .field 'd' 3] .stmac none [.control .mach, .reg32 'd'],
    base [.byte 0x02, .bits 5 0b00110, .field 'd' 3] .stmac none [.control .macl, .reg32 'd']]

/-- Every encoding. Where several match, the most specific one counts. -/
def opcodes : List Opcode :=
  dataTransfer ++ arithmetic ++ logic ++ shifts ++ registerBits ++ indirectBits ++ absoluteBits ++
    branches ++ systemControl ++ extensions

end H8.Encoding
