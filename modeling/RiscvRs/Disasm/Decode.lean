import RiscvRs.Exec.Compressed
import RiscvRs.Lib.Text

/-! The disassembler of `disasm.rs`: a line is a mnemonic with its operands, and
`text` is what `format!` prints of it. -/

namespace RiscvRs

def regName (reg : Fin 32) : String :=
  match reg.val with
  | 0 => "zero"
  | 1 => "ra"
  | 2 => "sp"
  | 3 => "gp"
  | 4 => "tp"
  | 5 => "t0"
  | 6 => "t1"
  | 7 => "t2"
  | 8 => "s0"
  | 9 => "s1"
  | 10 => "a0"
  | 11 => "a1"
  | 12 => "a2"
  | 13 => "a3"
  | 14 => "a4"
  | 15 => "a5"
  | 16 => "a6"
  | 17 => "a7"
  | 18 => "s2"
  | 19 => "s3"
  | 20 => "s4"
  | 21 => "s5"
  | 22 => "s6"
  | 23 => "s7"
  | 24 => "s8"
  | 25 => "s9"
  | 26 => "s10"
  | 27 => "s11"
  | 28 => "t3"
  | 29 => "t4"
  | 30 => "t5"
  | 31 => "t6"
  | _ => "unknown"

def fregName (reg : Fin 32) : String :=
  match reg.val with
  | 0 => "ft0"
  | 1 => "ft1"
  | 2 => "ft2"
  | 3 => "ft3"
  | 4 => "ft4"
  | 5 => "ft5"
  | 6 => "ft6"
  | 7 => "ft7"
  | 8 => "fs0"
  | 9 => "fs1"
  | 10 => "fa0"
  | 11 => "fa1"
  | 12 => "fa2"
  | 13 => "fa3"
  | 14 => "fa4"
  | 15 => "fa5"
  | 16 => "fa6"
  | 17 => "fa7"
  | 18 => "fs2"
  | 19 => "fs3"
  | 20 => "fs4"
  | 21 => "fs5"
  | 22 => "fs6"
  | 23 => "fs7"
  | 24 => "fs8"
  | 25 => "fs9"
  | 26 => "fs10"
  | 27 => "fs11"
  | 28 => "ft8"
  | 29 => "ft9"
  | 30 => "ft10"
  | 31 => "ft11"
  | _ => "unknown"

/-- The first words of the lines. -/
inductive Mnemonic where
  | lui | auipc | j | jal | ret | jr | jalr
  | beqz | beq | bnez | bne | bltz | blt | bgez | bge | bltu | bgeu | unknownBranch
  | lb | lh | lw | lbu | lhu | loadUnknown
  | sb | sh | sw | storeUnknown
  | nop | li | mv | addi | slti | sltiu | xori | ori | andi | slli | srai | srli | opImmUnknown
  | add | sub | sll | slt | sltu | xor | srl | sra | or | and
  | mul | mulh | mulhsu | mulhu | div | divu | rem | remu | opUnknown
  | flw | fsw
  | ecall | ebreak | mret | csrrw | csrrs | csrrc | csrrwi | csrrsi | csrrci | csrOp
  | unimpl
  | cReserved | cAddi4spn | cFld | cLw | cFlw | cFsd | cSw | cFsw
  | cNop | cAddi | cJal | cLi | cAddi16sp | cLui | cSrli | cSrai | cAndi | cSub | cXor | cOr | cAnd
  | cJ | cBeqz | cBnez
  | cSlli | cFldsp | cLwsp | cFlwsp | cJr | cMv | cEbreak | cJalr | cAdd | cFsdsp | cSwsp | cFswsp
deriving DecidableEq, Repr

namespace Mnemonic

def text : Mnemonic → String
  | lui => "lui"
  | auipc => "auipc"
  | j => "j"
  | jal => "jal"
  | ret => "ret"
  | jr => "jr"
  | jalr => "jalr"
  | beqz => "beqz"
  | beq => "beq"
  | bnez => "bnez"
  | bne => "bne"
  | bltz => "bltz"
  | blt => "blt"
  | bgez => "bgez"
  | bge => "bge"
  | bltu => "bltu"
  | bgeu => "bgeu"
  | unknownBranch => "unknown_branch"
  | lb => "lb"
  | lh => "lh"
  | lw => "lw"
  | lbu => "lbu"
  | lhu => "lhu"
  | loadUnknown => "load_unknown"
  | sb => "sb"
  | sh => "sh"
  | sw => "sw"
  | storeUnknown => "store_unknown"
  | nop => "nop"
  | li => "li"
  | mv => "mv"
  | addi => "addi"
  | slti => "slti"
  | sltiu => "sltiu"
  | xori => "xori"
  | ori => "ori"
  | andi => "andi"
  | slli => "slli"
  | srai => "srai"
  | srli => "srli"
  | opImmUnknown => "op_imm_unknown"
  | add => "add"
  | sub => "sub"
  | sll => "sll"
  | slt => "slt"
  | sltu => "sltu"
  | xor => "xor"
  | srl => "srl"
  | sra => "sra"
  | or => "or"
  | and => "and"
  | mul => "mul"
  | mulh => "mulh"
  | mulhsu => "mulhsu"
  | mulhu => "mulhu"
  | div => "div"
  | divu => "divu"
  | rem => "rem"
  | remu => "remu"
  | opUnknown => "op_unknown"
  | flw => "flw"
  | fsw => "fsw"
  | ecall => "ecall"
  | ebreak => "ebreak"
  | mret => "mret"
  | csrrw => "csrrw"
  | csrrs => "csrrs"
  | csrrc => "csrrc"
  | csrrwi => "csrrwi"
  | csrrsi => "csrrsi"
  | csrrci => "csrrci"
  | csrOp => "csr_op"
  | unimpl => "unimpl"
  | cReserved => "c.reserved"
  | cAddi4spn => "c.addi4spn"
  | cFld => "c.fld"
  | cLw => "c.lw"
  | cFlw => "c.flw"
  | cFsd => "c.fsd"
  | cSw => "c.sw"
  | cFsw => "c.fsw"
  | cNop => "c.nop"
  | cAddi => "c.addi"
  | cJal => "c.jal"
  | cLi => "c.li"
  | cAddi16sp => "c.addi16sp"
  | cLui => "c.lui"
  | cSrli => "c.srli"
  | cSrai => "c.srai"
  | cAndi => "c.andi"
  | cSub => "c.sub"
  | cXor => "c.xor"
  | cOr => "c.or"
  | cAnd => "c.and"
  | cJ => "c.j"
  | cBeqz => "c.beqz"
  | cBnez => "c.bnez"
  | cSlli => "c.slli"
  | cFldsp => "c.fldsp"
  | cLwsp => "c.lwsp"
  | cFlwsp => "c.flwsp"
  | cJr => "c.jr"
  | cMv => "c.mv"
  | cEbreak => "c.ebreak"
  | cJalr => "c.jalr"
  | cAdd => "c.add"
  | cFsdsp => "c.fsdsp"
  | cSwsp => "c.swsp"
  | cFswsp => "c.fswsp"

end Mnemonic

/-- What stands between the commas. `hex` carries the symbol of a target, if it
has one, and `padded` the word a placeholder shows. -/
inductive Operand where
  | reg (num : Fin 32)
  | freg (num : Fin 32)
  | int (val : Int)
  | mem (offset : Int) (base : Fin 32)
  | hex (val : U32) (symbol : Option String)
  | padded (width val : Nat)
deriving DecidableEq, Repr

def Operand.text : Operand → String
  | reg num => regName num
  | freg num => fregName num
  | int val => toString val
  | mem offset base => toString offset ++ "(" ++ regName base ++ ")"
  | hex val none => hexPadded 1 val.toNat
  | hex val (some name) => hexPadded 1 val.toNat ++ " <" ++ name ++ ">"
  | padded width val => hexPadded width val

structure Asm where
  mnemonic : Mnemonic
  operands : List Operand
deriving DecidableEq, Repr

def Asm.text (line : Asm) : String := Text.line line.mnemonic.text (line.operands.map Operand.text)

/-- The symbol map, by its lookups. -/
abbrev Symbols := U32 → Option String

def formatTarget (addr : U32) (symbols : Option Symbols) : Operand :=
  match symbols with
  | some syms => .hex addr (syms addr)
  | none => .hex addr none

section Words

variable (address raw : U32) (symbols : Option Symbols)

def branchMnemonic (funct3 : U8) (rs2 : Fin 32) : Mnemonic :=
  match funct3 with
  | 0x0 => if rs2 = 0 then .beqz else .beq
  | 0x1 => if rs2 = 0 then .bnez else .bne
  | 0x4 => if rs2 = 0 then .bltz else .blt
  | 0x5 => if rs2 = 0 then .bgez else .bge
  | 0x6 => .bltu
  | 0x7 => .bgeu
  | _ => .unknownBranch

def loadMnemonic (funct3 : U8) : Mnemonic :=
  match funct3 with
  | 0x0 => .lb
  | 0x1 => .lh
  | 0x2 => .lw
  | 0x4 => .lbu
  | 0x5 => .lhu
  | _ => .loadUnknown

def storeMnemonic (funct3 : U8) : Mnemonic :=
  match funct3 with
  | 0x0 => .sb
  | 0x1 => .sh
  | 0x2 => .sw
  | _ => .storeUnknown

def opMnemonic (funct7 funct3 : U8) : Mnemonic :=
  match funct7, funct3 with
  | 0x00, 0x0 => .add
  | 0x20, 0x0 => .sub
  | 0x00, 0x1 => .sll
  | 0x00, 0x2 => .slt
  | 0x00, 0x3 => .sltu
  | 0x00, 0x4 => .xor
  | 0x00, 0x5 => .srl
  | 0x20, 0x5 => .sra
  | 0x00, 0x6 => .or
  | 0x00, 0x7 => .and
  | 0x01, 0x0 => .mul
  | 0x01, 0x1 => .mulh
  | 0x01, 0x2 => .mulhsu
  | 0x01, 0x3 => .mulhu
  | 0x01, 0x4 => .div
  | 0x01, 0x5 => .divu
  | 0x01, 0x6 => .rem
  | 0x01, 0x7 => .remu
  | _, _ => .opUnknown

def csrMnemonic (funct3 : U8) : Mnemonic :=
  match funct3 with
  | 0x1 => .csrrw
  | 0x2 => .csrrs
  | 0x3 => .csrrc
  | 0x5 => .csrrwi
  | 0x6 => .csrrsi
  | 0x7 => .csrrci
  | _ => .csrOp

/-- `OP_IMM`. -/
def decodeOpImm (inst : DecodedInst32) : Asm :=
  let imm := inst.iImm
  let shamt : Int := inst.rs2.val
  match inst.funct3 with
  | 0x0 =>
    if inst.raw = 0x00000013 then ⟨.nop, []⟩
    else if inst.rs1 = 0 then ⟨.li, [.reg inst.rd, .int imm.toInt]⟩
    else if imm = 0 then ⟨.mv, [.reg inst.rd, .reg inst.rs1]⟩
    else ⟨.addi, [.reg inst.rd, .reg inst.rs1, .int imm.toInt]⟩
  | 0x2 => ⟨.slti, [.reg inst.rd, .reg inst.rs1, .int imm.toInt]⟩
  | 0x3 => ⟨.sltiu, [.reg inst.rd, .reg inst.rs1, .int imm.toNat]⟩
  | 0x4 => ⟨.xori, [.reg inst.rd, .reg inst.rs1, .int imm.toInt]⟩
  | 0x6 => ⟨.ori, [.reg inst.rd, .reg inst.rs1, .int imm.toInt]⟩
  | 0x7 => ⟨.andi, [.reg inst.rd, .reg inst.rs1, .int imm.toInt]⟩
  | 0x1 => ⟨.slli, [.reg inst.rd, .reg inst.rs1, .int shamt]⟩
  | 0x5 =>
    if inst.funct7 = 0x20 then ⟨.srai, [.reg inst.rd, .reg inst.rs1, .int shamt]⟩
    else ⟨.srli, [.reg inst.rd, .reg inst.rs1, .int shamt]⟩
  | _ => ⟨.opImmUnknown, [.padded 8 inst.raw.toNat]⟩

/-- `OP_SYSTEM`. -/
def decodeSystem (inst : DecodedInst32) : Asm :=
  if inst.raw = 0x00000073 then ⟨.ecall, []⟩
  else if inst.raw = 0x00100073 then ⟨.ebreak, []⟩
  else if inst.raw = 0x30200073 then ⟨.mret, []⟩
  else ⟨csrMnemonic inst.funct3, [.reg inst.rd, .hex (inst.raw >>> 20) none, .reg inst.rs1]⟩

/-- `OP_BRANCH`. -/
def decodeBranch (inst : DecodedInst32) : Asm :=
  let target := formatTarget (address + inst.bImm) symbols
  let op := branchMnemonic inst.funct3 inst.rs2
  if op = .beqz ∨ op = .bnez ∨ op = .bltz ∨ op = .bgez then ⟨op, [.reg inst.rs1, target]⟩
  else ⟨op, [.reg inst.rs1, .reg inst.rs2, target]⟩

/-- `OP_JALR`. -/
def decodeJalr (inst : DecodedInst32) : Asm :=
  let imm := inst.iImm
  if inst.rd = 0 ∧ inst.rs1 = 1 ∧ imm = 0 then ⟨.ret, []⟩
  else if inst.rd = 0 ∧ imm = 0 then ⟨.jr, [.reg inst.rs1]⟩
  else ⟨.jalr, [.reg inst.rd, .mem imm.toInt inst.rs1]⟩

def decodeRv32 : Asm :=
  let inst := DecodedInst32.decode raw
  match Opcode.ofBits? inst.opcode with
  | some .lui => ⟨.lui, [.reg inst.rd, .int (inst.uImm.sshiftRight 12).toInt]⟩
  | some .auipc => ⟨.auipc, [.reg inst.rd, .int (inst.uImm.sshiftRight 12).toInt]⟩
  | some .jal =>
    let target := formatTarget (address + inst.jImm) symbols
    if inst.rd = 0 then ⟨.j, [target]⟩ else ⟨.jal, [.reg inst.rd, target]⟩
  | some .jalr => decodeJalr inst
  | some .branch => decodeBranch address symbols inst
  | some .load => ⟨loadMnemonic inst.funct3, [.reg inst.rd, .mem inst.iImm.toInt inst.rs1]⟩
  | some .store => ⟨storeMnemonic inst.funct3, [.reg inst.rs2, .mem inst.sImm.toInt inst.rs1]⟩
  | some .imm => decodeOpImm inst
  | some .op => ⟨opMnemonic inst.funct7 inst.funct3, [.reg inst.rd, .reg inst.rs1, .reg inst.rs2]⟩
  | some .loadFp => ⟨.flw, [.freg inst.rd, .mem inst.iImm.toInt inst.rs1]⟩
  | some .storeFp => ⟨.fsw, [.freg inst.rs2, .mem inst.sImm.toInt inst.rs1]⟩
  | some .system => decodeSystem inst
  | _ => ⟨.unimpl, [.padded 8 raw.toNat]⟩

end Words

section Halfwords

variable (address : U32) (inst : U16)

/-- The sign-extended jump offset of the CJ format, as an absolute target. -/
def formatTargetRvc : Operand :=
  let imm11 := (shiftThenMask inst 12 1 <<< 11) ||| (shiftThenMask inst 8 1 <<< 10)
    ||| (shiftThenMask inst 9 3 <<< 8) ||| (shiftThenMask inst 6 1 <<< 7)
    ||| (shiftThenMask inst 7 1 <<< 6) ||| (shiftThenMask inst 2 1 <<< 5)
    ||| (shiftThenMask inst 11 1 <<< 4) ||| (shiftThenMask inst 3 7 <<< 1)
  let offset := ((imm11 <<< 4).sshiftRight 4).signExtend 32
  .hex (address + offset) none

/-- The sign-extended branch offset of the CB format, as an absolute target. -/
def formatBranchTargetRvc : Operand :=
  let imm := (shiftThenMask inst 12 1 <<< 8) ||| (shiftThenMask inst 5 3 <<< 6)
    ||| (shiftThenMask inst 2 1 <<< 5) ||| (shiftThenMask inst 10 3 <<< 3)
    ||| (shiftThenMask inst 3 3 <<< 1)
  let offset := ((imm <<< 7).sshiftRight 7).signExtend 32
  .hex (address + offset) none

def cReserved : Asm := ⟨.cReserved, [.padded 4 inst.toNat]⟩

def decodeQuadrant0 (funct3 : U16) : Asm :=
  let rdc := creg inst 2
  let rs1c := creg inst 7
  match funct3 with
  | 0x0 =>
    let imm := shiftThenMask inst 7 0x30 ||| shiftThenMask inst 1 0x3C0 ||| shiftThenMask inst 4 0x4
      ||| shiftThenMask inst 2 0x8
    if imm = 0 then cReserved inst else ⟨.cAddi4spn, [.reg rdc, .reg 2, .int imm.toNat]⟩
  | 0x1 => ⟨.cFld, [.freg rdc, .mem (clDoubleOffset inst).toNat rs1c]⟩
  | 0x2 => ⟨.cLw, [.reg rdc, .mem (clWordOffset inst).toNat rs1c]⟩
  | 0x3 => ⟨.cFlw, [.freg rdc, .mem (clWordOffset inst).toNat rs1c]⟩
  | 0x5 => ⟨.cFsd, [.freg rdc, .mem (clDoubleOffset inst).toNat rs1c]⟩
  | 0x6 => ⟨.cSw, [.reg rdc, .mem (clWordOffset inst).toNat rs1c]⟩
  | 0x7 => ⟨.cFsw, [.freg rdc, .mem (clWordOffset inst).toNat rs1c]⟩
  | _ => cReserved inst

/-- `c.addi16sp` and `c.lui`. -/
def decodeLuiGroup : Asm :=
  let rd := regField16 inst 7
  let imm6 := (shiftThenMask inst 12 1 <<< 5) ||| shiftThenMask inst 2 0x1F
  let imm6Sext := ((imm6 <<< 10).sshiftRight 10).signExtend 32
  if rd = 2 then
    let imm := (shiftThenMask inst 12 1 <<< 9) ||| (shiftThenMask inst 3 3 <<< 7)
      ||| (shiftThenMask inst 5 1 <<< 6) ||| (shiftThenMask inst 2 1 <<< 5)
      ||| (shiftThenMask inst 6 1 <<< 4)
    if imm = 0 then cReserved inst
    else ⟨.cAddi16sp, [.reg 2, .int (((imm <<< 6).sshiftRight 6).signExtend 32).toInt]⟩
  else if rd = 0 ∨ imm6 = 0 then cReserved inst
  else ⟨.cLui, [.reg rd, .int imm6Sext.toInt]⟩

/-- `c.srli`, `c.srai`, `c.andi` and the register-register group. -/
def decodeAluGroup : Asm :=
  let rdc := creg inst 2
  let rs1c := creg inst 7
  let imm6 := (shiftThenMask inst 12 1 <<< 5) ||| shiftThenMask inst 2 0x1F
  let imm6Sext := ((imm6 <<< 10).sshiftRight 10).signExtend 32
  let bit12 := shiftThenMask inst 12 1
  match shiftThenMask inst 10 0x3 with
  | 0 | 1 =>
    let opName : Mnemonic := if shiftThenMask inst 10 0x3 = 0 then .cSrli else .cSrai
    if bit12 ≠ 0 then cReserved inst
    else ⟨opName, [.reg rs1c, .int (shiftThenMask inst 2 0x1F).toNat]⟩
  | 2 => ⟨.cAndi, [.reg rs1c, .int imm6Sext.toInt]⟩
  | _ =>
    if bit12 ≠ 0 then cReserved inst
    else
      let opName : Mnemonic := match shiftThenMask inst 5 0x3 with
        | 0 => .cSub
        | 1 => .cXor
        | 2 => .cOr
        | _ => .cAnd
      ⟨opName, [.reg rs1c, .reg rdc]⟩

def decodeQuadrant1 (funct3 : U16) : Asm :=
  let rd := regField16 inst 7
  let rs1c := creg inst 7
  let imm6 := (shiftThenMask inst 12 1 <<< 5) ||| shiftThenMask inst 2 0x1F
  let imm6Sext := ((imm6 <<< 10).sshiftRight 10).signExtend 32
  match funct3 with
  | 0x0 => if rd = 0 then ⟨.cNop, []⟩ else ⟨.cAddi, [.reg rd, .int imm6Sext.toInt]⟩
  | 0x1 => ⟨.cJal, [formatTargetRvc address inst]⟩
  | 0x2 => ⟨.cLi, [.reg rd, .int imm6Sext.toInt]⟩
  | 0x3 => decodeLuiGroup inst
  | 0x4 => decodeAluGroup inst
  | 0x5 => ⟨.cJ, [formatTargetRvc address inst]⟩
  | 0x6 => ⟨.cBeqz, [.reg rs1c, formatBranchTargetRvc address inst]⟩
  | 0x7 => ⟨.cBnez, [.reg rs1c, formatBranchTargetRvc address inst]⟩
  | _ => cReserved inst

/-- `c.jr`, `c.mv`, `c.ebreak`, `c.jalr` and `c.add`. -/
def decodeJumpGroup : Asm :=
  let rd := regField16 inst 7
  let rs2 := regField16 inst 2
  let bit12 := shiftThenMask inst 12 1
  if bit12 = 0 ∧ rs2 = 0 then
    if rd = 0 then cReserved inst else ⟨.cJr, [.reg rd]⟩
  else if bit12 = 0 then ⟨.cMv, [.reg rd, .reg rs2]⟩
  else if rd = 0 ∧ rs2 = 0 then ⟨.cEbreak, []⟩
  else if rs2 = 0 then ⟨.cJalr, [.reg rd]⟩
  else ⟨.cAdd, [.reg rd, .reg rs2]⟩

def decodeQuadrant2 (funct3 : U16) : Asm :=
  let rd := regField16 inst 7
  let rs2 := regField16 inst 2
  match funct3 with
  | 0x0 =>
    if shiftThenMask inst 12 1 ≠ 0 then cReserved inst
    else ⟨.cSlli, [.reg rd, .int (shiftThenMask inst 2 0x1F).toNat]⟩
  | 0x1 => ⟨.cFldsp, [.freg rd, .mem (ciDoubleSpOffset inst).toNat 2]⟩
  | 0x2 =>
    if rd = 0 then cReserved inst else ⟨.cLwsp, [.reg rd, .mem (ciWordSpOffset inst).toNat 2]⟩
  | 0x3 => ⟨.cFlwsp, [.freg rd, .mem (ciWordSpOffset inst).toNat 2]⟩
  | 0x4 => decodeJumpGroup inst
  | 0x5 => ⟨.cFsdsp, [.freg rs2, .mem (cssDoubleSpOffset inst).toNat 2]⟩
  | 0x6 => ⟨.cSwsp, [.reg rs2, .mem (cssWordSpOffset inst).toNat 2]⟩
  | 0x7 => ⟨.cFswsp, [.freg rs2, .mem (cssWordSpOffset inst).toNat 2]⟩
  | _ => cReserved inst

def decodeRvc : Asm :=
  let funct3 := shiftThenMask inst 13 0x7
  match inst &&& 0x3 with
  | 0x0 => decodeQuadrant0 inst funct3
  | 0x1 => decodeQuadrant1 address inst funct3
  | 0x2 => decodeQuadrant2 inst funct3
  | _ => cReserved inst

end Halfwords

structure DisassembledInst where
  address : U32
  opcodeHex : String
  asmText : String
  isCompressed : Bool
  label : Option String
deriving DecidableEq, Repr

/-- The digits of `hexPadded`, as `{:0w$x}` prints them. -/
def hexField (width val : Nat) : String := String.ofList ((hexPadded width val).toList.drop 2)

def decodeInstructionWithSymbols (address opcode : U32) (symbols : Option Symbols) :
    DisassembledInst :=
  let isCompressed := opcode &&& 0x3 ≠ 0x3
  let half : U16 := (opcode &&& 0xFFFF).setWidth 16
  { address := address
    opcodeHex := if isCompressed then hexField 4 half.toNat else hexField 8 opcode.toNat
    asmText := if isCompressed then (decodeRvc address half).text
      else (decodeRv32 address opcode symbols).text
    isCompressed := isCompressed
    label := symbols.bind (· address) }

def decodeInstruction (address opcode : U32) : DisassembledInst :=
  decodeInstructionWithSymbols address opcode none

example : (decodeInstruction 0x1000 0xFE0518E3).asmText = "bnez a0, 0xff0" := by decide +kernel

end RiscvRs
