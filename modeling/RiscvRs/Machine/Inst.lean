import RiscvRs.Machine.Host

/-! Instruction words and their fields, from `inst.rs` and `utils.rs`. -/

namespace RiscvRs

/-- `(val >> shift) & mask`. -/
def shiftThenMask {w : Nat} (val : BitVec w) (shift : Nat) (mask : BitVec w) : BitVec w :=
  (val >>> shift) &&& mask

/-- The major opcodes the executor knows. -/
inductive Opcode where
  | lui | auipc | jal | jalr | branch | load | store | imm | op | miscMem | system | amo
  | loadFp | storeFp | madd | msub | nmsub | nmadd | opFp
deriving DecidableEq, Repr

namespace Opcode

/-- The `OP_*` constants. -/
def bits : Opcode → U8
  | lui => 0x37
  | auipc => 0x17
  | jal => 0x6F
  | jalr => 0x67
  | branch => 0x63
  | load => 0x03
  | store => 0x23
  | imm => 0x13
  | op => 0x33
  | miscMem => 0x0F
  | system => 0x73
  | amo => 0x2F
  | loadFp => 0x07
  | storeFp => 0x27
  | madd => 0x43
  | msub => 0x47
  | nmsub => 0x4B
  | nmadd => 0x4F
  | opFp => 0x53

def all : List Opcode :=
  [lui, auipc, jal, jalr, branch, load, store, imm, op, miscMem, system, amo,
    loadFp, storeFp, madd, msub, nmsub, nmadd, opFp]

/-- The constant a `match` on an opcode byte selects, if any. -/
def ofBits? (byte : U8) : Option Opcode := all.find? fun code => code.bits == byte

theorem ofBits?_bits (code : Opcode) : ofBits? code.bits = some code := by
  cases code <;> rfl

end Opcode

theorem mask_lt {w : Nat} (x mask : BitVec w) : (x &&& mask).toNat ≤ mask.toNat := by
  rw [BitVec.toNat_and]
  exact Nat.and_le_right

/-- Register numbers are written as numerals. -/
instance neZeroRegs : NeZero 32 := ⟨by decide⟩

/-- A five-bit register field: the mask is what keeps it below 32. -/
def regField (inst : U32) (shift : Nat) : Fin 32 :=
  ⟨(shiftThenMask inst shift 0x1F).toNat, Nat.lt_succ_of_le (mask_lt _ _)⟩

structure DecodedInst32 where
  raw : U32
  opcode : U8
  rd : Fin 32
  rs1 : Fin 32
  rs2 : Fin 32
  rs3 : Fin 32
  funct3 : U8
  funct7 : U8
deriving DecidableEq, Repr

namespace DecodedInst32

def decode (inst : U32) : DecodedInst32 where
  raw := inst
  opcode := (inst &&& 0x7F).setWidth 8
  rd := regField inst 7
  funct3 := (shiftThenMask inst 12 0x7).setWidth 8
  rs1 := regField inst 15
  rs2 := regField inst 20
  rs3 := regField inst 27
  funct7 := (shiftThenMask inst 25 0x7F).setWidth 8

variable (inst : DecodedInst32)

def iImm : U32 := inst.raw.sshiftRight 20

def sImm : U32 :=
  let imm11_5 := shiftThenMask inst.raw 25 0x7F
  let imm4_0 := shiftThenMask inst.raw 7 0x1F
  let rawS := (imm11_5 <<< 5) ||| imm4_0
  (rawS <<< 20).sshiftRight 20

def bImm : U32 :=
  let imm12 := shiftThenMask inst.raw 31 1
  let imm10_5 := shiftThenMask inst.raw 25 0x3F
  let imm4_1 := shiftThenMask inst.raw 8 0xF
  let imm11 := shiftThenMask inst.raw 7 1
  let offset := (imm12 <<< 12) ||| (imm11 <<< 11) ||| (imm10_5 <<< 5) ||| (imm4_1 <<< 1)
  (offset <<< 19).sshiftRight 19

def uImm : U32 := inst.raw &&& 0xFFFFF000

def jImm : U32 :=
  let imm20 := shiftThenMask inst.raw 31 1
  let imm10_1 := shiftThenMask inst.raw 21 0x3FF
  let imm11 := shiftThenMask inst.raw 20 1
  let imm19_12 := shiftThenMask inst.raw 12 0xFF
  let offset := (imm20 <<< 20) ||| (imm19_12 <<< 12) ||| (imm11 <<< 11) ||| (imm10_1 <<< 1)
  (offset <<< 11).sshiftRight 11

end DecodedInst32

structure DecodedInst16 where
  raw : U16
  op : U8
  funct3 : U8
deriving DecidableEq, Repr

def DecodedInst16.decode (inst : U16) : DecodedInst16 where
  raw := inst
  op := (inst &&& 0x3).setWidth 8
  funct3 := (shiftThenMask inst 13 0x7).setWidth 8

/-- An instruction as fetched: a compressed halfword or a full word. -/
inductive Fetched where
  | half (inst : U16)
  | word (inst : U32)
deriving DecidableEq, Repr

end RiscvRs
