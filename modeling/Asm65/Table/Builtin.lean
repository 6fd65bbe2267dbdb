import Asm65.Table

/-!
# The built-in table

The instructions of the 6502 family. The templates of one mnemonic are tried
from top to bottom, so the forms for the zero page stand before the absolute
ones.
-/

namespace Asm65.Table

/-- Addressing modes by their usual names. -/
inductive AddressingMode
  | implied
  | accumulator
  | immediate
  | unmarkedImmediate
  | zeroPage
  | zeroPageX
  | zeroPageY
  | stackRelative
  | absolute
  | absoluteX
  | absoluteY
  | long
  | longX
  | zeroPageIndirect
  | zeroPageXIndirect
  | zeroPageIndirectY
  | stackIndirectY
  | zeroPageLongIndirect
  | zeroPageLongIndirectY
  | absoluteIndirect
  | absoluteXIndirect
  | absoluteLongIndirect
  | relative
  | relativeLong
deriving DecidableEq

/-- The operand shapes of an addressing mode. -/
def AddressingMode.shapes : AddressingMode → List Shape
  | implied => []
  | accumulator => [.literal "a"]
  | immediate => [.literal "#", .value .imm8]
  | unmarkedImmediate => [.value .imm8]
  | zeroPage => [.value .addr8]
  | zeroPageX => [.value .addr8, .register .x]
  | zeroPageY => [.value .addr8, .register .y]
  | stackRelative => [.value .addr8, .register .s]
  | absolute => [.value .addr16]
  | absoluteX => [.value .addr16, .register .x]
  | absoluteY => [.value .addr16, .register .y]
  | long => [.value .addr24]
  | longX => [.value .addr24, .register .x]
  | zeroPageIndirect => [.literal "(", .value .addr8, .literal ")"]
  | zeroPageXIndirect => [.literal "(", .value .addr8, .register .x, .literal ")"]
  | zeroPageIndirectY => [.literal "(", .value .addr8, .literal ")", .register .y]
  | stackIndirectY => [.literal "(", .value .addr8, .register .s, .literal ")", .register .y]
  | zeroPageLongIndirect => [.literal "[", .value .addr8, .literal "]"]
  | zeroPageLongIndirectY => [.literal "[", .value .addr8, .literal "]", .register .y]
  | absoluteIndirect => [.literal "(", .value .addr16, .literal ")"]
  | absoluteXIndirect => [.literal "(", .value .addr16, .register .x, .literal ")"]
  | absoluteLongIndirect => [.literal "[", .value .addr16, .literal "]"]
  | relative => [.value .pcRel8]
  | relativeLong => [.value .pcRel16]

/-- The chips that an instruction or an addressing mode came with. -/
inductive Chip
  | base
  | cmos
  | bitOps
  | power
  | wide
  | undocumented
deriving DecidableEq

/-- The features that a chip's additions need. -/
def Chip.requires : Chip → FeatureSet
  | base => ∅
  | cmos => {.mos65c02}
  | bitOps => {.mosr65c02}
  | power => {.mosw65c02}
  | wide => {.mosw65816}
  | undocumented => {.mos6502x}

/-- One line of the built-in table. -/
def mode (mnemonic : String) (mode : AddressingMode) (opcode : UInt8) (chip : Chip) : Template :=
  .ofMnemonic mnemonic mode.shapes opcode chip.requires

/-- Loads and stores. -/
def loadStore : List Template :=
  [mode "lda" .immediate 0xa9 .base,
    mode "lda" .zeroPage 0xa5 .base,
    mode "lda" .zeroPageX 0xb5 .base,
    mode "lda" .absolute 0xad .base,
    mode "lda" .absoluteX 0xbd .base,
    mode "lda" .absoluteY 0xb9 .base,
    mode "lda" .zeroPageXIndirect 0xa1 .base,
    mode "lda" .zeroPageIndirectY 0xb1 .base,
    mode "lda" .zeroPageIndirect 0xb2 .cmos,
    mode "lda" .long 0xaf .wide,
    mode "lda" .longX 0xbf .wide,
    mode "lda" .zeroPageLongIndirect 0xa7 .wide,
    mode "lda" .zeroPageLongIndirectY 0xb7 .wide,
    mode "lda" .stackRelative 0xa3 .wide,
    mode "lda" .stackIndirectY 0xb3 .wide,
    mode "ldx" .immediate 0xa2 .base,
    mode "ldx" .zeroPage 0xa6 .base,
    mode "ldx" .zeroPageY 0xb6 .base,
    mode "ldx" .absolute 0xae .base,
    mode "ldx" .absoluteY 0xbe .base,
    mode "ldy" .immediate 0xa0 .base,
    mode "ldy" .zeroPage 0xa4 .base,
    mode "ldy" .zeroPageX 0xb4 .base,
    mode "ldy" .absolute 0xac .base,
    mode "ldy" .absoluteX 0xbc .base,
    mode "sta" .zeroPage 0x85 .base,
    mode "sta" .zeroPageX 0x95 .base,
    mode "sta" .absolute 0x8d .base,
    mode "sta" .absoluteX 0x9d .base,
    mode "sta" .absoluteY 0x99 .base,
    mode "sta" .zeroPageXIndirect 0x81 .base,
    mode "sta" .zeroPageIndirectY 0x91 .base,
    mode "sta" .zeroPageIndirect 0x92 .cmos,
    mode "sta" .long 0x8f .wide,
    mode "sta" .longX 0x9f .wide,
    mode "sta" .zeroPageLongIndirect 0x87 .wide,
    mode "sta" .zeroPageLongIndirectY 0x97 .wide,
    mode "stx" .zeroPage 0x86 .base,
    mode "stx" .zeroPageY 0x96 .base,
    mode "stx" .absolute 0x8e .base,
    mode "sty" .zeroPage 0x84 .base,
    mode "sty" .zeroPageX 0x94 .base,
    mode "sty" .absolute 0x8c .base,
    mode "stz" .zeroPage 0x64 .cmos,
    mode "stz" .zeroPageX 0x74 .cmos,
    mode "stz" .absolute 0x9c .cmos,
    mode "stz" .absoluteX 0x9e .cmos]

/-- Arithmetic and logic. -/
def arithmetic : List Template :=
  [mode "adc" .immediate 0x69 .base,
    mode "adc" .zeroPage 0x65 .base,
    mode "adc" .zeroPageX 0x75 .base,
    mode "adc" .absolute 0x6d .base,
    mode "adc" .absoluteX 0x7d .base,
    mode "adc" .absoluteY 0x79 .base,
    mode "adc" .zeroPageXIndirect 0x61 .base,
    mode "adc" .zeroPageIndirectY 0x71 .base,
    mode "adc" .zeroPageIndirect 0x72 .cmos,
    mode "and" .immediate 0x29 .base,
    mode "and" .zeroPage 0x25 .base,
    mode "and" .zeroPageX 0x35 .base,
    mode "and" .absolute 0x2d .base,
    mode "and" .absoluteX 0x3d .base,
    mode "and" .absoluteY 0x39 .base,
    mode "and" .zeroPageXIndirect 0x21 .base,
    mode "and" .zeroPageIndirectY 0x31 .base,
    mode "and" .zeroPageIndirect 0x32 .cmos,
    mode "cmp" .immediate 0xc9 .base,
    mode "cmp" .zeroPage 0xc5 .base,
    mode "cmp" .zeroPageX 0xd5 .base,
    mode "cmp" .absolute 0xcd .base,
    mode "cmp" .absoluteX 0xdd .base,
    mode "cmp" .absoluteY 0xd9 .base,
    mode "cmp" .zeroPageXIndirect 0xc1 .base,
    mode "cmp" .zeroPageIndirectY 0xd1 .base,
    mode "cmp" .zeroPageIndirect 0xd2 .cmos,
    mode "eor" .immediate 0x49 .base,
    mode "eor" .zeroPage 0x45 .base,
    mode "eor" .zeroPageX 0x55 .base,
    mode "eor" .absolute 0x4d .base,
    mode "eor" .absoluteX 0x5d .base,
    mode "eor" .absoluteY 0x59 .base,
    mode "eor" .zeroPageXIndirect 0x41 .base,
    mode "eor" .zeroPageIndirectY 0x51 .base,
    mode "eor" .zeroPageIndirect 0x52 .cmos,
    mode "ora" .immediate 0x09 .base,
    mode "ora" .zeroPage 0x05 .base,
    mode "ora" .zeroPageX 0x15 .base,
    mode "ora" .absolute 0x0d .base,
    mode "ora" .absoluteX 0x1d .base,
    mode "ora" .absoluteY 0x19 .base,
    mode "ora" .zeroPageXIndirect 0x01 .base,
    mode "ora" .zeroPageIndirectY 0x11 .base,
    mode "ora" .zeroPageIndirect 0x12 .cmos,
    mode "sbc" .immediate 0xe9 .base,
    mode "sbc" .zeroPage 0xe5 .base,
    mode "sbc" .zeroPageX 0xf5 .base,
    mode "sbc" .absolute 0xed .base,
    mode "sbc" .absoluteX 0xfd .base,
    mode "sbc" .absoluteY 0xf9 .base,
    mode "sbc" .zeroPageXIndirect 0xe1 .base,
    mode "sbc" .zeroPageIndirectY 0xf1 .base,
    mode "sbc" .zeroPageIndirect 0xf2 .cmos,
    mode "cpx" .immediate 0xe0 .base,
    mode "cpx" .zeroPage 0xe4 .base,
    mode "cpx" .absolute 0xec .base,
    mode "cpy" .immediate 0xc0 .base,
    mode "cpy" .zeroPage 0xc4 .base,
    mode "cpy" .absolute 0xcc .base,
    mode "bit" .zeroPage 0x24 .base,
    mode "bit" .absolute 0x2c .base,
    mode "bit" .immediate 0x89 .cmos,
    mode "bit" .zeroPageX 0x34 .cmos,
    mode "bit" .absoluteX 0x3c .cmos,
    mode "trb" .zeroPage 0x14 .cmos,
    mode "trb" .absolute 0x1c .cmos,
    mode "tsb" .zeroPage 0x04 .cmos,
    mode "tsb" .absolute 0x0c .cmos]

/-- Shifts, rotations, increments and decrements. -/
def readModifyWrite : List Template :=
  [mode "asl" .implied 0x0a .base,
    mode "asl" .accumulator 0x0a .base,
    mode "asl" .zeroPage 0x06 .base,
    mode "asl" .zeroPageX 0x16 .base,
    mode "asl" .absolute 0x0e .base,
    mode "asl" .absoluteX 0x1e .base,
    mode "lsr" .implied 0x4a .base,
    mode "lsr" .accumulator 0x4a .base,
    mode "lsr" .zeroPage 0x46 .base,
    mode "lsr" .zeroPageX 0x56 .base,
    mode "lsr" .absolute 0x4e .base,
    mode "lsr" .absoluteX 0x5e .base,
    mode "rol" .implied 0x2a .base,
    mode "rol" .accumulator 0x2a .base,
    mode "rol" .zeroPage 0x26 .base,
    mode "rol" .zeroPageX 0x36 .base,
    mode "rol" .absolute 0x2e .base,
    mode "rol" .absoluteX 0x3e .base,
    mode "ror" .implied 0x6a .base,
    mode "ror" .accumulator 0x6a .base,
    mode "ror" .zeroPage 0x66 .base,
    mode "ror" .zeroPageX 0x76 .base,
    mode "ror" .absolute 0x6e .base,
    mode "ror" .absoluteX 0x7e .base,
    mode "inc" .zeroPage 0xe6 .base,
    mode "inc" .zeroPageX 0xf6 .base,
    mode "inc" .absolute 0xee .base,
    mode "inc" .absoluteX 0xfe .base,
    mode "inc" .implied 0x1a .cmos,
    mode "inc" .accumulator 0x1a .cmos,
    mode "dec" .zeroPage 0xc6 .base,
    mode "dec" .zeroPageX 0xd6 .base,
    mode "dec" .absolute 0xce .base,
    mode "dec" .absoluteX 0xde .base,
    mode "dec" .implied 0x3a .cmos,
    mode "dec" .accumulator 0x3a .cmos,
    mode "inx" .implied 0xe8 .base,
    mode "iny" .implied 0xc8 .base,
    mode "dex" .implied 0xca .base,
    mode "dey" .implied 0x88 .base]

/-- Branches, jumps and returns. -/
def branches : List Template :=
  [mode "bcc" .relative 0x90 .base,
    mode "bcs" .relative 0xb0 .base,
    mode "beq" .relative 0xf0 .base,
    mode "bmi" .relative 0x30 .base,
    mode "bne" .relative 0xd0 .base,
    mode "bpl" .relative 0x10 .base,
    mode "bvc" .relative 0x50 .base,
    mode "bvs" .relative 0x70 .base,
    mode "bra" .relative 0x80 .cmos,
    mode "brl" .relativeLong 0x82 .wide,
    mode "per" .relativeLong 0x62 .wide,
    mode "jmp" .absolute 0x4c .base,
    mode "jmp" .absoluteIndirect 0x6c .base,
    mode "jmp" .absoluteXIndirect 0x7c .cmos,
    mode "jmp" .long 0x5c .wide,
    mode "jmp" .absoluteLongIndirect 0xdc .wide,
    mode "jml" .long 0x5c .wide,
    mode "jsr" .absolute 0x20 .base,
    mode "jsr" .absoluteXIndirect 0xfc .wide,
    mode "jsl" .long 0x22 .wide,
    mode "rts" .implied 0x60 .base,
    mode "rti" .implied 0x40 .base,
    mode "rtl" .implied 0x6b .wide]

/-- Pushes and pulls. -/
def stack : List Template :=
  [mode "pha" .implied 0x48 .base,
    mode "php" .implied 0x08 .base,
    mode "pla" .implied 0x68 .base,
    mode "plp" .implied 0x28 .base,
    mode "phx" .implied 0xda .cmos,
    mode "phy" .implied 0x5a .cmos,
    mode "plx" .implied 0xfa .cmos,
    mode "ply" .implied 0x7a .cmos,
    mode "phb" .implied 0x8b .wide,
    mode "plb" .implied 0xab .wide,
    mode "phd" .implied 0x0b .wide,
    mode "pld" .implied 0x2b .wide,
    mode "phk" .implied 0x4b .wide,
    mode "pea" .absolute 0xf4 .wide,
    mode "pei" .zeroPageIndirect 0xd4 .wide]

/-- Transfers between registers, and flags. -/
def transfers : List Template :=
  [mode "tax" .implied 0xaa .base,
    mode "tay" .implied 0xa8 .base,
    mode "tsx" .implied 0xba .base,
    mode "txa" .implied 0x8a .base,
    mode "txs" .implied 0x9a .base,
    mode "tya" .implied 0x98 .base,
    mode "tcd" .implied 0x5b .wide,
    mode "tdc" .implied 0x7b .wide,
    mode "tcs" .implied 0x1b .wide,
    mode "tsc" .implied 0x3b .wide,
    mode "txy" .implied 0x9b .wide,
    mode "tyx" .implied 0xbb .wide,
    mode "xba" .implied 0xeb .wide,
    mode "xce" .implied 0xfb .wide,
    mode "clc" .implied 0x18 .base,
    mode "cld" .implied 0xd8 .base,
    mode "cli" .implied 0x58 .base,
    mode "clv" .implied 0xb8 .base,
    mode "sec" .implied 0x38 .base,
    mode "sed" .implied 0xf8 .base,
    mode "sei" .implied 0x78 .base,
    mode "rep" .immediate 0xc2 .wide,
    mode "sep" .immediate 0xe2 .wide]

/-- Breaks, waits and the like. -/
def control : List Template :=
  [mode "brk" .implied 0x00 .base,
    mode "brk" .immediate 0x00 .base,
    mode "nop" .implied 0xea .base,
    mode "cop" .immediate 0x02 .wide,
    mode "wdm" .unmarkedImmediate 0x42 .wide,
    mode "wai" .implied 0xcb .power,
    mode "stp" .implied 0xdb .power]

/-- Bit operations on the zero page. -/
def bitOperations : List Template :=
  [mode "rmb0" .zeroPage 0x07 .bitOps,
    mode "rmb1" .zeroPage 0x17 .bitOps,
    mode "rmb2" .zeroPage 0x27 .bitOps,
    mode "rmb3" .zeroPage 0x37 .bitOps,
    mode "rmb4" .zeroPage 0x47 .bitOps,
    mode "rmb5" .zeroPage 0x57 .bitOps,
    mode "rmb6" .zeroPage 0x67 .bitOps,
    mode "rmb7" .zeroPage 0x77 .bitOps,
    mode "smb0" .zeroPage 0x87 .bitOps,
    mode "smb1" .zeroPage 0x97 .bitOps,
    mode "smb2" .zeroPage 0xa7 .bitOps,
    mode "smb3" .zeroPage 0xb7 .bitOps,
    mode "smb4" .zeroPage 0xc7 .bitOps,
    mode "smb5" .zeroPage 0xd7 .bitOps,
    mode "smb6" .zeroPage 0xe7 .bitOps,
    mode "smb7" .zeroPage 0xf7 .bitOps]

/-- Opcodes that only the first chips have. -/
def undocumentedOpcodes : List Template :=
  [mode "lax" .zeroPage 0xa7 .undocumented,
    mode "lax" .zeroPageY 0xb7 .undocumented,
    mode "lax" .absolute 0xaf .undocumented,
    mode "lax" .absoluteY 0xbf .undocumented,
    mode "lax" .zeroPageXIndirect 0xa3 .undocumented,
    mode "lax" .zeroPageIndirectY 0xb3 .undocumented,
    mode "sax" .zeroPage 0x87 .undocumented,
    mode "sax" .zeroPageY 0x97 .undocumented,
    mode "sax" .absolute 0x8f .undocumented,
    mode "sax" .zeroPageXIndirect 0x83 .undocumented]

/-- The templates of the built-in table. -/
def builtinTemplates : List Template :=
  loadStore ++ arithmetic ++ readModifyWrite ++ branches ++ stack ++
    transfers ++ control ++ bitOperations ++ undocumentedOpcodes

/-- The built-in table. -/
def builtin : Table :=
  .ofTemplates builtinTemplates

end Asm65.Table
