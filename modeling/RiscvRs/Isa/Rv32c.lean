import Mathlib

/-! The instruction formats as concatenated fields, and the table of the RV32C
extension (with F and D) that expands every compressed instruction. -/

namespace Isa

section Formats

variable (funct7 : BitVec 7) (rs2 rs1 : BitVec 5) (funct3 : BitVec 3) (rd : BitVec 5)
  (opcode : BitVec 7)

def encR : BitVec 32 := funct7 ++ rs2 ++ rs1 ++ funct3 ++ rd ++ opcode

def encI (imm : BitVec 12) : BitVec 32 := imm ++ rs1 ++ funct3 ++ rd ++ opcode

def encS (imm : BitVec 12) : BitVec 32 :=
  imm.extractLsb 11 5 ++ rs2 ++ rs1 ++ funct3 ++ imm.extractLsb 4 0 ++ opcode

def encB (imm : BitVec 13) : BitVec 32 :=
  imm.extractLsb 12 12 ++ imm.extractLsb 10 5 ++ rs2 ++ rs1 ++ funct3 ++ imm.extractLsb 4 1
    ++ imm.extractLsb 11 11 ++ opcode

/-- The upper twenty bits of the immediate. -/
def encU (imm : BitVec 20) : BitVec 32 := imm ++ rd ++ opcode

def encJ (imm : BitVec 21) : BitVec 32 :=
  imm.extractLsb 20 20 ++ imm.extractLsb 10 1 ++ imm.extractLsb 11 11 ++ imm.extractLsb 19 12 ++
    rd ++ opcode

end Formats

/-! The instructions that expansions use, with operands in assembler order. -/

namespace Asm

def addi (rd rs1 : BitVec 5) (imm : BitVec 12) : BitVec 32 := encI rs1 0b000 rd 0b0010011 imm
def andi (rd rs1 : BitVec 5) (imm : BitVec 12) : BitVec 32 := encI rs1 0b111 rd 0b0010011 imm
def slli (rd rs1 shamt : BitVec 5) : BitVec 32 := encR 0b0000000 shamt rs1 0b001 rd 0b0010011
def srli (rd rs1 shamt : BitVec 5) : BitVec 32 := encR 0b0000000 shamt rs1 0b101 rd 0b0010011
def srai (rd rs1 shamt : BitVec 5) : BitVec 32 := encR 0b0100000 shamt rs1 0b101 rd 0b0010011
def add (rd rs1 rs2 : BitVec 5) : BitVec 32 := encR 0b0000000 rs2 rs1 0b000 rd 0b0110011
def sub (rd rs1 rs2 : BitVec 5) : BitVec 32 := encR 0b0100000 rs2 rs1 0b000 rd 0b0110011
def xor (rd rs1 rs2 : BitVec 5) : BitVec 32 := encR 0b0000000 rs2 rs1 0b100 rd 0b0110011
def or (rd rs1 rs2 : BitVec 5) : BitVec 32 := encR 0b0000000 rs2 rs1 0b110 rd 0b0110011
def and (rd rs1 rs2 : BitVec 5) : BitVec 32 := encR 0b0000000 rs2 rs1 0b111 rd 0b0110011
def lui (rd : BitVec 5) (imm : BitVec 20) : BitVec 32 := encU rd 0b0110111 imm
def jal (rd : BitVec 5) (offset : BitVec 21) : BitVec 32 := encJ rd 0b1101111 offset
def jalr (rd rs1 : BitVec 5) (offset : BitVec 12) : BitVec 32 := encI rs1 0b000 rd 0b1100111 offset
def beq (rs1 rs2 : BitVec 5) (offset : BitVec 13) : BitVec 32 := encB rs2 rs1 0b000 0b1100011 offset
def bne (rs1 rs2 : BitVec 5) (offset : BitVec 13) : BitVec 32 := encB rs2 rs1 0b001 0b1100011 offset
def lw (rd rs1 : BitVec 5) (offset : BitVec 12) : BitVec 32 := encI rs1 0b010 rd 0b0000011 offset
def sw (rs2 rs1 : BitVec 5) (offset : BitVec 12) : BitVec 32 := encS rs2 rs1 0b010 0b0100011 offset
def flw (rd rs1 : BitVec 5) (offset : BitVec 12) : BitVec 32 := encI rs1 0b010 rd 0b0000111 offset
def fsw (rs2 rs1 : BitVec 5) (offset : BitVec 12) : BitVec 32 := encS rs2 rs1 0b010 0b0100111 offset
def fld (rd rs1 : BitVec 5) (offset : BitVec 12) : BitVec 32 := encI rs1 0b011 rd 0b0000111 offset
def fsd (rs2 rs1 : BitVec 5) (offset : BitVec 12) : BitVec 32 := encS rs2 rs1 0b011 0b0100111 offset
def ebreak : BitVec 32 := encI 0 0b000 0 0b1110011 1

end Asm

open Asm

section Compressed

variable (c : BitVec 16)

/-- Bits `hi` down to `lo`. -/
abbrev slice (hi lo : Nat) : BitVec (hi - lo + 1) := c.extractLsb hi lo

/-- The three-bit register fields name x8..x15. -/
def regC (field : BitVec 3) : BitVec 5 := 0b01#2 ++ field

def rdC : BitVec 5 := regC (slice c 4 2)
def rs1C : BitVec 5 := regC (slice c 9 7)
def rdFull : BitVec 5 := slice c 11 7
def rs2Full : BitVec 5 := slice c 6 2

/-- `nzuimm[5:4|9:6|2|3]` in bits 12 to 5. -/
def immCIW : BitVec 10 := slice c 10 7 ++ slice c 12 11 ++ slice c 5 5 ++ slice c 6 6 ++ 0#2

/-- `uimm[5:3]` in bits 12 to 10 and `uimm[2|6]` in bits 6 and 5. -/
def immWord : BitVec 7 := slice c 5 5 ++ slice c 12 10 ++ slice c 6 6 ++ 0#2

/-- `uimm[5:3]` in bits 12 to 10 and `uimm[7:6]` in bits 6 and 5. -/
def immDouble : BitVec 8 := slice c 6 5 ++ slice c 12 10 ++ 0#3

/-- `imm[5]` in bit 12 and `imm[4:0]` in bits 6 to 2. -/
def immCI : BitVec 6 := slice c 12 12 ++ slice c 6 2

/-- `nzimm[9]` in bit 12 and `nzimm[4|6|8:7|5]` in bits 6 to 2. -/
def immSp : BitVec 10 :=
  slice c 12 12 ++ slice c 4 3 ++ slice c 5 5 ++ slice c 2 2 ++ slice c 6 6 ++ 0#4

/-- `imm[11|4|9:8|10|6|7|3:1|5]` in bits 12 to 2. -/
def immCJ : BitVec 12 :=
  slice c 12 12 ++ slice c 8 8 ++ slice c 10 9 ++ slice c 6 6 ++ slice c 7 7 ++ slice c 2 2 ++
    slice c 11 11
    ++ slice c 5 3 ++ 0#1

/-- `imm[8|4:3]` in bits 12 to 10 and `imm[7:6|2:1|5]` in bits 6 to 2. -/
def immCB : BitVec 9 :=
  slice c 12 12 ++ slice c 6 5 ++ slice c 2 2 ++ slice c 11 10 ++ slice c 4 3 ++ 0#1

/-- `uimm[5]` in bit 12 and `uimm[4:2|7:6]` in bits 6 to 2. -/
def immLwsp : BitVec 8 := slice c 3 2 ++ slice c 12 12 ++ slice c 6 4 ++ 0#2

/-- `uimm[5]` in bit 12 and `uimm[4:3|8:6]` in bits 6 to 2. -/
def immLdsp : BitVec 9 := slice c 4 2 ++ slice c 12 12 ++ slice c 6 5 ++ 0#3

/-- `uimm[5:2|7:6]` in bits 12 to 7. -/
def immSwsp : BitVec 8 := slice c 8 7 ++ slice c 12 9 ++ 0#2

/-- `uimm[5:3|8:6]` in bits 12 to 7. -/
def immSdsp : BitVec 9 := slice c 9 7 ++ slice c 12 10 ++ 0#3

/-- Quadrant 0 by `funct3`; `none` is a reserved encoding. -/
def expand0 (funct3 : BitVec 3) : Option (BitVec 32) :=
  match funct3 with
  | 0b000 => if immCIW c = 0 then none else some (addi (rdC c) 2 ((immCIW c).setWidth 12))
  | 0b001 => some (fld (rdC c) (rs1C c) ((immDouble c).setWidth 12))
  | 0b010 => some (lw (rdC c) (rs1C c) ((immWord c).setWidth 12))
  | 0b011 => some (flw (rdC c) (rs1C c) ((immWord c).setWidth 12))
  | 0b101 => some (fsd (rdC c) (rs1C c) ((immDouble c).setWidth 12))
  | 0b110 => some (sw (rdC c) (rs1C c) ((immWord c).setWidth 12))
  | 0b111 => some (fsw (rdC c) (rs1C c) ((immWord c).setWidth 12))
  | _ => none

/-- `C.ADDI16SP` where `rd` is the stack pointer, else `C.LUI`. -/
def expandLui : Option (BitVec 32) :=
  if rdFull c = 2 then
    if immSp c = 0 then none else some (addi 2 2 ((immSp c).signExtend 12))
  else if immCI c = 0 then none
  else some (lui (rdFull c) ((immCI c).signExtend 20))

/-- The arithmetic group; bit 12 is reserved in all but `C.ANDI`. -/
def expandAlu : Option (BitVec 32) :=
  match slice c 11 10 with
  | 0b00 => if slice c 12 12 = 0 then some (srli (rs1C c) (rs1C c) (slice c 6 2)) else none
  | 0b01 => if slice c 12 12 = 0 then some (srai (rs1C c) (rs1C c) (slice c 6 2)) else none
  | 0b10 => some (andi (rs1C c) (rs1C c) ((immCI c).signExtend 12))
  | _ =>
    if slice c 12 12 = 0 then
      match slice c 6 5 with
      | 0b00 => some (sub (rs1C c) (rs1C c) (rdC c))
      | 0b01 => some (xor (rs1C c) (rs1C c) (rdC c))
      | 0b10 => some (or (rs1C c) (rs1C c) (rdC c))
      | _ => some (and (rs1C c) (rs1C c) (rdC c))
    else none

def expand1 (funct3 : BitVec 3) : Option (BitVec 32) :=
  match funct3 with
  | 0b000 => some (addi (rdFull c) (rdFull c) ((immCI c).signExtend 12))
  | 0b001 => some (jal 1 ((immCJ c).signExtend 21))
  | 0b010 => some (addi (rdFull c) 0 ((immCI c).signExtend 12))
  | 0b011 => expandLui c
  | 0b100 => expandAlu c
  | 0b101 => some (jal 0 ((immCJ c).signExtend 21))
  | 0b110 => some (beq (rs1C c) 0 ((immCB c).signExtend 13))
  | _ => some (bne (rs1C c) 0 ((immCB c).signExtend 13))

/-- `C.JR`, `C.MV`, `C.EBREAK`, `C.JALR` and `C.ADD`. -/
def expandJump : Option (BitVec 32) :=
  if slice c 12 12 = 0 then
    if rs2Full c = 0 then
      if rdFull c = 0 then none else some (jalr 0 (rdFull c) 0)
    else some (add (rdFull c) 0 (rs2Full c))
  else if rs2Full c = 0 then
    if rdFull c = 0 then some ebreak else some (jalr 1 (rdFull c) 0)
  else some (add (rdFull c) (rdFull c) (rs2Full c))

def expand2 (funct3 : BitVec 3) : Option (BitVec 32) :=
  match funct3 with
  | 0b000 => if slice c 12 12 = 0 then some (slli (rdFull c) (rdFull c) (slice c 6 2)) else none
  | 0b001 => some (fld (rdFull c) 2 ((immLdsp c).setWidth 12))
  | 0b010 => if rdFull c = 0 then none else some (lw (rdFull c) 2 ((immLwsp c).setWidth 12))
  | 0b011 => some (flw (rdFull c) 2 ((immLwsp c).setWidth 12))
  | 0b100 => expandJump c
  | 0b101 => some (fsd (rs2Full c) 2 ((immSdsp c).setWidth 12))
  | 0b110 => some (sw (rs2Full c) 2 ((immSwsp c).setWidth 12))
  | _ => some (fsw (rs2Full c) 2 ((immSwsp c).setWidth 12))

/-- The expansion of a compressed instruction; hints expand like the instruction
they are encoded as. -/
def expand : Option (BitVec 32) :=
  match slice c 1 0 with
  | 0b00 => expand0 c (slice c 15 13)
  | 0b01 => expand1 c (slice c 15 13)
  | 0b10 => expand2 c (slice c 15 13)
  | _ => none

end Compressed

end Isa
