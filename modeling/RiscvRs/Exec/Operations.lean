import RiscvRs.Exec.Spill
import RiscvRs.Exec.Values

/-! What an instruction does once its fields and operands are known. Both
interpreters decode to these operations, so a property of every instruction is
proved once for each operation. -/

namespace RiscvRs

open Effects Prog

/-- The integer loads. -/
inductive LoadKind where
  | lb | lh | lw | lbu | lhu
deriving DecidableEq, Repr

namespace LoadKind

def ofFunct3? (funct3 : U8) : Option LoadKind :=
  match funct3 with
  | 0 => some lb
  | 1 => some lh
  | 2 => some lw
  | 4 => some lbu
  | 5 => some lhu
  | _ => none

def width : LoadKind → Width
  | lb | lbu => .byte
  | lh | lhu => .half
  | lw => .word

/-- Extension of what was read to a register. -/
def extend : (kind : LoadKind) → BitVec kind.width.bits → U32
  | lb, val | lh, val => val.signExtend 32
  | lbu, val | lhu, val => val.setWidth 32
  | lw, val => val

end LoadKind

/-- The integer stores. -/
def Width.ofFunct3? (funct3 : U8) : Option Width :=
  match funct3 with
  | 0 => some .byte
  | 1 => some .half
  | 2 => some .word
  | _ => none

/-- An instruction with its operands. `next` is where control goes afterwards;
`plain` marks the double accesses that address their second word with a checked `+`. -/
inductive Op where
  | goto (next : U32)
  | write (rd : Fin 32) (val next : U32)
  | writeF (rd : Fin 32) (bits : U64) (next : U32)
  | halt (next : U32)
  | load (kind : LoadKind) (rd : Fin 32) (addr next : U32)
  | loadSingle (rd : Fin 32) (addr next : U32)
  | loadDouble (plain : Bool) (rd : Fin 32) (addr next : U32)
  | store (width : Width) (addr val next : U32)
  | storeDouble (plain : Bool) (bits : U64) (addr next : U32)
  | amo (raw : U32) (funct5 : U8) (rd : Fin 32) (addr src next : U32)
  | ecall (next : U32)
  | mret (next : U32)
  | csr (num : U16) (newVal : U32) (rd : Fin 32) (oldVal next : U32)
  | illegal (raw : U32)
  | unknown (opcode : U8)

/-- The address of the second word of a double. -/
def Build.secondWord {σ ε : Type} (build : Build) (plain : Bool) (addr : U32) : Prog σ ε U32 :=
  if plain then build.addU32 addr 4 else pure (addr + 4)

/-- Carry out an operation and return the next `pc`. -/
def Op.exec (env : Env) : Op → Exec U32
  | goto next => return next
  | write rd val next => do
    modifyCpu (·.writeReg rd val)
    return next
  | writeF rd bits next => do
    modifyCpu (·.setFreg rd bits)
    return next
  | halt next => do
    modifyCpu fun cpu => { cpu with isHalted := true }
    return next
  | load kind rd addr next => do
    let val ← onBus (Memory.readAt env.host kind.width addr)
    modifyCpu (·.writeReg rd (kind.extend val))
    return next
  | loadSingle rd addr next => do
    let raw ← onBus (Memory.readU32 env.host addr)
    modifyCpu (·.setFreg rd (Cpu.boxed raw))
    return next
  | loadDouble plain rd addr next => do
    let low ← onBus (Memory.readU32 env.host addr)
    let addr4 ← env.build.secondWord plain addr
    let high ← onBus (Memory.readU32 env.host addr4)
    modifyCpu (·.writeF64 rd ((high.setWidth 64 <<< 32) ||| low.setWidth 64))
    return next
  | store width addr val next => do
    onBus (Memory.writeAt width addr (val.setWidth width.bits))
    return next
  | storeDouble plain bits addr next => do
    onBus (Memory.writeU32 addr (bits.setWidth 32))
    let addr4 ← env.build.secondWord plain addr
    onBus (Memory.writeU32 addr4 ((bits >>> 32).setWidth 32))
    return next
  | amo raw funct5 rd addr src next => do
    let oldVal ← onBus (Memory.readU32 env.host addr)
    let newVal ← orIllegal raw (amoResult funct5 oldVal src)
    if funct5 ≠ 0x02 then
      onBus (Memory.writeU32 addr newVal)
    modifyCpu (·.writeReg rd (if funct5 = 0x03 then 0 else oldVal))
    return next
  | ecall next => do
    handleEcall env
    return next
  | mret next => do
    modifyCpu Cpu.mret
    return next
  | csr num newVal rd oldVal next => do
    modifyCpu fun cpu => { cpu with csrs := cpu.csrs.set num newVal }
    modifyCpu (·.writeReg rd oldVal)
    return next
  | illegal raw => RiscvRs.illegal raw
  | unknown opcode => do
    let cpu ← getCpu
    fail (.unknownOpcode cpu.pc opcode)

/-- An operation on a decoded result, or the illegal instruction. -/
def Op.ofResult {α : Type} (raw : U32) (result : Option α) (op : α → Op) : Op :=
  match result with
  | some a => op a
  | none => .illegal raw

/-- What `write_f32` stores. -/
def Cpu.singleBits (val : U32) : U64 := if Ieee.single.isNan val.toNat then nanF64 else boxed val

/-- What `write_f64` stores. -/
def Cpu.doubleBits (val : U64) : U64 :=
  if Ieee.double.isNan val.toNat then 0x7FF8000000000000 else val

namespace DecodedInst32

variable (env : Env) (inst : DecodedInst32) (cpu : Cpu) (next : U32)

/-- `OP_SYSTEM`. -/
def systemOp : Op :=
  if inst.funct3 = 0 then
    let imm12 := inst.raw >>> 20
    if imm12 = 0 then .ecall next
    else if imm12 = 1 then .halt next
    else if imm12 = 0x302 then .mret (if cpu.csrs.get mepc ≠ 0 then cpu.csrs.get mepc else next)
    else .goto next
  else
    let csrNum := ((inst.raw >>> 20) &&& 0xFFF).setWidth 16
    let oldVal := cpu.csrs.get csrNum
    .csr csrNum (csrResult inst.funct3 oldVal (cpu.readReg inst.rs1) inst.rs1) inst.rd oldVal next

def loadFpOp : Op :=
  let addr := cpu.readReg inst.rs1 + inst.iImm
  if inst.funct3 = 2 then .loadSingle inst.rd addr next
  else if inst.funct3 = 3 then .loadDouble true inst.rd addr next
  else .illegal inst.raw

def storeFpOp : Op :=
  let addr := cpu.readReg inst.rs1 + inst.sImm
  if inst.funct3 = 2 then .store .word addr ((cpu.fregs inst.rs2 &&& 0xFFFFFFFF).setWidth 32) next
  else if inst.funct3 = 3 then .storeDouble true (cpu.readF64 inst.rs2) addr next
  else .illegal inst.raw

/-- `OP_OP_FP` with `fmt == 0`. -/
def opFpSOp : Op :=
  let s1 := cpu.readF32 inst.rs1
  let s2 := cpu.readF32 inst.rs2
  let single (res : U32) : Op := .writeF inst.rd (Cpu.singleBits res) next
  match inst.funct7 >>> 2 with
  | 0x00 => single (env.fpu.addS s1 s2)
  | 0x01 => single (env.fpu.subS s1 s2)
  | 0x02 => single (env.fpu.mulS s1 s2)
  | 0x03 => single (env.fpu.divS s1 s2)
  | 0x0B => single (env.fpu.sqrtS s1)
  | 0x04 => .ofResult inst.raw (signInject 0x7FFFFFFF 0x80000000 inst.funct3 s1 s2) fun res =>
      .writeF inst.rd (Cpu.boxed res) next
  | 0x05 => .ofResult inst.raw
      (minMax (fun s => Ieee.single.isNan s.toNat) env.fpu.minS env.fpu.maxS inst.funct3 s1 s2) single
  | 0x18 =>
    .write inst.rd (if inst.rs2 = 0 then toI32 Ieee.single s1.toNat else toU32 Ieee.single s1.toNat)
      next
  | 0x1A =>
    let val := cpu.readReg inst.rs1
    single (if inst.rs2 = 0 then env.fpu.i32ToS val else env.fpu.u32ToS val)
  | 0x1C =>
    if inst.funct3 = 0 then .write inst.rd ((cpu.fregs inst.rs1 &&& 0xFFFFFFFF).setWidth 32) next
    else if inst.funct3 = 1 then .write inst.rd (classMaskS s1) next
    else .goto next
  | 0x1E => .writeF inst.rd (Cpu.boxed (cpu.readReg inst.rs1)) next
  | 0x14 => .ofResult inst.raw (compareFp Ieee.single inst.funct3 s1.toNat s2.toNat) fun res =>
      .write inst.rd res next
  | 0x08 => single (env.fpu.dToS (cpu.readF64 inst.rs1))
  | _ => .illegal inst.raw

/-- `OP_OP_FP` with `fmt == 1`. -/
def opFpDOp : Op :=
  let d1 := cpu.readF64 inst.rs1
  let d2 := cpu.readF64 inst.rs2
  let double (res : U64) : Op := .writeF inst.rd (Cpu.doubleBits res) next
  match inst.funct7 >>> 2 with
  | 0x00 => double (env.fpu.addD d1 d2)
  | 0x01 => double (env.fpu.subD d1 d2)
  | 0x02 => double (env.fpu.mulD d1 d2)
  | 0x03 => double (env.fpu.divD d1 d2)
  | 0x0B => double (env.fpu.sqrtD d1)
  | 0x04 =>
    .ofResult inst.raw (signInject 0x7FFFFFFFFFFFFFFF 0x8000000000000000 inst.funct3 d1 d2)
      fun res => .writeF inst.rd res next
  | 0x05 => .ofResult inst.raw
      (minMax (fun d => Ieee.double.isNan d.toNat) env.fpu.minD env.fpu.maxD inst.funct3 d1 d2) double
  | 0x08 => double (env.fpu.sToD (cpu.readF32 inst.rs1))
  | 0x18 =>
    .write inst.rd (if inst.rs2 = 0 then toI32 Ieee.double d1.toNat else toU32 Ieee.double d1.toNat)
      next
  | 0x1A =>
    let val := cpu.readReg inst.rs1
    double (if inst.rs2 = 0 then env.fpu.i32ToD val else env.fpu.u32ToD val)
  | 0x1C => if inst.funct3 = 1 then .write inst.rd (classMaskD d1) next else .goto next
  | 0x14 => .ofResult inst.raw (compareFp Ieee.double inst.funct3 d1.toNat d2.toNat) fun res =>
      .write inst.rd res next
  | _ => .illegal inst.raw

def opFpOp : Op :=
  if inst.funct7 &&& 0x3 = 0 then inst.opFpSOp env cpu next
  else if inst.funct7 &&& 0x3 = 1 then inst.opFpDOp env cpu next
  else .illegal inst.raw

def fusedOp : Op :=
  let fmt : U8 := (shiftThenMask inst.raw 25 3).setWidth 8
  if fmt = 0 then
    .ofResult inst.raw (fusedResult env.fpu.mulS env.fpu.addS env.fpu.subS (0x80000000 ^^^ ·)
      inst.opcode (cpu.readF32 inst.rs1) (cpu.readF32 inst.rs2) (cpu.readF32 inst.rs3)) fun res =>
        .writeF inst.rd (Cpu.singleBits res) next
  else if fmt = 1 then
    .ofResult inst.raw (fusedResult env.fpu.mulD env.fpu.addD env.fpu.subD
      (0x8000000000000000 ^^^ ·)
      inst.opcode (cpu.readF64 inst.rs1) (cpu.readF64 inst.rs2) (cpu.readF64 inst.rs3)) fun res =>
        .writeF inst.rd (Cpu.doubleBits res) next
  else .illegal inst.raw

/-- The base instructions. -/
def baseOp : Op :=
  let src1 := cpu.readReg inst.rs1
  let src2 := cpu.readReg inst.rs2
  match Opcode.ofBits? inst.opcode with
  | some .lui => .write inst.rd inst.uImm next
  | some .auipc => .write inst.rd (cpu.pc + inst.uImm) next
  | some .jal => .write inst.rd next (cpu.pc + inst.jImm)
  | some .jalr => .write inst.rd next ((src1 + inst.iImm) &&& ~~~1)
  | some .branch => .ofResult inst.raw (branchTaken inst.funct3 src1 src2) fun take =>
      .goto (if take then cpu.pc + inst.bImm else next)
  | some .load => .ofResult inst.raw (LoadKind.ofFunct3? inst.funct3) fun kind =>
      .load kind inst.rd (src1 + inst.iImm) next
  | some .store => .ofResult inst.raw (Width.ofFunct3? inst.funct3) fun width =>
      .store width (src1 + inst.sImm) src2 next
  | some .imm => .ofResult inst.raw
      (opImmValue inst.funct3 inst.funct7 src1 inst.iImm (inst.rs2.val &&& 0x1F)) fun val =>
        .write inst.rd val next
  | some .op =>
    .ofResult inst.raw (opValue inst.funct7 inst.funct3 src1 src2) fun val =>
      .write inst.rd val next
  | some .miscMem => .goto next
  | _ => .illegal inst.raw

def mulDivOp : Op :=
  .ofResult inst.raw (mulDivValue inst.funct3 (cpu.readReg inst.rs1) (cpu.readReg inst.rs2)) fun val =>
    .write inst.rd val next

def amoOp : Op :=
  .amo inst.raw (inst.funct7 >>> 2) inst.rd (cpu.readReg inst.rs1) (cpu.readReg inst.rs2) next

/-- The operation of a full word on `cpu`; `next` is the `pc` after it. -/
def op : Op :=
  match Opcode.ofBits? inst.opcode with
  | some .op => if inst.funct7 = 0x01 then inst.mulDivOp cpu next else inst.baseOp cpu next
  | some .lui | some .auipc | some .jal | some .jalr | some .branch | some .load | some .store
  | some .imm | some .miscMem => inst.baseOp cpu next
  | some .system => inst.systemOp cpu next
  | some .amo => inst.amoOp cpu next
  | some .loadFp => inst.loadFpOp cpu next
  | some .storeFp => inst.storeFpOp cpu next
  | some .opFp => inst.opFpOp env cpu next
  | some .madd | some .msub | some .nmsub | some .nmadd => inst.fusedOp env cpu next
  | none => .unknown inst.opcode

end DecodedInst32

section Halfwords

variable (inst : U16) (cpu : Cpu) (next : U32)

def quadrant0Op (funct3 : U8) : Op :=
  let base := cpu.readReg (creg inst 7)
  match funct3 with
  | 0 =>
    if addi4spnImm inst = 0 then .illegal (inst.setWidth 32)
    else .write (creg inst 2) (cpu.readReg 2 + addi4spnImm inst) next
  | 1 => .loadDouble false (creg inst 2) (base + clDoubleOffset inst) next
  | 2 => .load .lw (creg inst 2) (base + clWordOffset inst) next
  | 3 => .loadSingle (creg inst 2) (base + clWordOffset inst) next
  | 5 => .storeDouble false (cpu.readF64 (creg inst 2)) (base + clDoubleOffset inst) next
  | 6 => .store .word (base + clWordOffset inst) (cpu.readReg (creg inst 2)) next
  | 7 =>
    .store .word (base + clWordOffset inst)
      ((cpu.fregs (creg inst 2) &&& 0xFFFFFFFF).setWidth 32) next
  | _ => .illegal (inst.setWidth 32)

/-- `C.ADDI16SP` and `C.LUI`. -/
def luiGroupOp : Op :=
  let rd := regField16 inst 7
  if rd = 2 then
    if addi16spImm inst = 0 then .illegal (inst.setWidth 32)
    else .write 2 (cpu.readReg 2 + ((addi16spImm inst <<< 6).sshiftRight 6).signExtend 32) next
  else if rd ≠ 0 then
    if imm6 inst = 0 then .illegal (inst.setWidth 32) else .write rd (signExt6 inst <<< 12) next
  else .illegal (inst.setWidth 32)

/-- `C.SRLI`, `C.SRAI`, `C.ANDI` and the register-register group. -/
def aluGroupOp : Op :=
  let rdc := creg inst 7
  let bit12 := shiftThenMask inst 12 1
  let src := cpu.readReg rdc
  match shiftThenMask inst 10 0x3 with
  | 0 | 1 =>
    if bit12 ≠ 0 then .illegal (inst.setWidth 32)
    else
      let shamt := (shiftThenMask inst 2 0x1F).toNat
      if shamt ≠ 0 then
        .write rdc (if shiftThenMask inst 10 0x3 = 0 then src >>> shamt else src.sshiftRight shamt) next
      else .goto next
  | 2 => .write rdc (src &&& signExt6 inst) next
  | _ =>
    if bit12 ≠ 0 then .illegal (inst.setWidth 32)
    else
      let src2 := cpu.readReg (creg inst 2)
      .write rdc
        (match shiftThenMask inst 5 0x3 with
          | 0 => src - src2
          | 1 => src ^^^ src2
          | 2 => src ||| src2
          | _ => src &&& src2) next

def quadrant1Op (funct3 : U8) : Op :=
  match funct3 with
  | 0 =>
    let rd := regField16 inst 7
    if rd ≠ 0 ∧ signExt6 inst ≠ 0 then .write rd
      (cpu.readReg rd + signExt6 inst) next else .goto next
  | 1 => .write 1 next (cpu.pc + jumpOffset inst)
  | 2 => .write (regField16 inst 7) (signExt6 inst) next
  | 3 => luiGroupOp inst cpu next
  | 4 => aluGroupOp inst cpu next
  | 5 => .goto (cpu.pc + jumpOffset inst)
  | 6 => .goto (if cpu.readReg (creg inst 7) = 0 then cpu.pc + branchOffset inst else next)
  | 7 => .goto (if cpu.readReg (creg inst 7) ≠ 0 then cpu.pc + branchOffset inst else next)
  | _ => .illegal (inst.setWidth 32)

/-- `C.JR`, `C.MV`, `C.EBREAK`, `C.JALR` and `C.ADD`. -/
def jumpGroupOp : Op :=
  let rd := regField16 inst 7
  let rs2 := regField16 inst 2
  let bit12 := shiftThenMask inst 12 1
  if bit12 = 0 ∧ rs2 = 0 then
    if rd = 0 then .illegal (inst.setWidth 32) else .goto (cpu.readReg rd &&& ~~~1)
  else if bit12 = 0 ∧ rs2 ≠ 0 then
    if rd ≠ 0 then .write rd (cpu.readReg rs2) next else .goto next
  else if rd = 0 ∧ rs2 = 0 then .halt next
  else if rs2 = 0 then .write 1 next (cpu.readReg rd &&& ~~~1)
  else if rd ≠ 0 then .write rd (cpu.readReg rd + cpu.readReg rs2) next
  else .goto next

def quadrant2Op (funct3 : U8) : Op :=
  let sp := cpu.readReg 2
  match funct3 with
  | 0 =>
    let rd := regField16 inst 7
    if shiftThenMask inst 12 1 ≠ 0 then .illegal (inst.setWidth 32)
    else
      let shamt := (shiftThenMask inst 2 0x1F).toNat
      if rd ≠ 0 ∧ shamt ≠ 0 then .write rd (cpu.readReg rd <<< shamt) next else .goto next
  | 1 => .loadDouble false (regField16 inst 7) (sp + ciDoubleSpOffset inst) next
  | 2 =>
    if regField16 inst 7 = 0 then .illegal (inst.setWidth 32)
    else .load .lw (regField16 inst 7) (sp + ciWordSpOffset inst) next
  | 3 => .loadSingle (regField16 inst 7) (sp + ciWordSpOffset inst) next
  | 4 => jumpGroupOp inst cpu next
  | 5 => .storeDouble false (cpu.readF64 (regField16 inst 2)) (sp + cssDoubleSpOffset inst) next
  | 6 => .store .word (sp + cssWordSpOffset inst) (cpu.readReg (regField16 inst 2)) next
  | 7 =>
    .store .word (sp + cssWordSpOffset inst)
      ((cpu.fregs (regField16 inst 2) &&& 0xFFFFFFFF).setWidth 32) next
  | _ => .illegal (inst.setWidth 32)

def quadrantOp (quadrant funct3 : U8) : Op :=
  match quadrant with
  | 0 => quadrant0Op inst cpu next funct3
  | 1 => quadrant1Op inst cpu next funct3
  | 2 => quadrant2Op inst cpu next funct3
  | _ => .illegal (inst.setWidth 32)

end Halfwords

/-- Not an atomic, and no double access with a checked second address. -/
def Op.Common : Op → Prop
  | amo .. => False
  | loadDouble plain .. | storeDouble plain .. => plain = false
  | _ => True

section Common

theorem common_ofResult {α : Type} {raw : U32} {result : Option α} {op : α → Op}
    (each : ∀ a, (op a).Common) :
    (Op.ofResult raw result op).Common := by
  cases result with
  | none => trivial
  | some a => exact each a

theorem common_quadrantOp (inst : U16) (cpu : Cpu) (next : U32) (quadrant funct3 : U8) :
    (quadrantOp inst cpu next quadrant funct3).Common := by
  unfold quadrantOp
  split
  · unfold quadrant0Op
    dsimp only
    repeat' split
    all_goals trivial
  · unfold quadrant1Op luiGroupOp aluGroupOp
    dsimp only
    repeat' split
    all_goals trivial
  · unfold quadrant2Op jumpGroupOp
    dsimp only
    repeat' split
    all_goals trivial
  · trivial

namespace DecodedInst32

variable (env : Env) (inst : DecodedInst32) (cpu : Cpu) (next : U32)

theorem common_baseOp : (inst.baseOp cpu next).Common := by
  unfold baseOp
  dsimp only
  split <;> first | trivial | exact common_ofResult fun _ => trivial

theorem common_opFpOp : (inst.opFpOp env cpu next).Common := by
  unfold opFpOp opFpSOp opFpDOp
  dsimp only
  repeat' split
  all_goals first | trivial | exact common_ofResult fun _ => trivial

theorem common_fusedOp : (inst.fusedOp env cpu next).Common := by
  unfold fusedOp
  dsimp only
  repeat' split
  all_goals first | trivial | exact common_ofResult fun _ => trivial

theorem common_systemOp : (inst.systemOp cpu next).Common := by
  unfold systemOp
  dsimp only
  repeat' split
  all_goals trivial

/-- Everything outside three major opcodes. -/
theorem common_op (load : Opcode.ofBits? inst.opcode ≠ some .loadFp)
    (store : Opcode.ofBits? inst.opcode ≠ some .storeFp)
    (atomic : Opcode.ofBits? inst.opcode ≠ some .amo) :
    (inst.op env cpu next).Common := by
  have base := inst.common_baseOp cpu next
  unfold op
  cases known : Opcode.ofBits? inst.opcode with
  | none => trivial
  | some code =>
    cases code with
    | loadFp => exact absurd known load
    | storeFp => exact absurd known store
    | amo => exact absurd known atomic
    | op =>
      dsimp only
      split
      · exact common_ofResult fun _ => trivial
      · exact base
    | lui | auipc | jal | jalr | branch | load | store | imm | miscMem => exact base
    | system => exact inst.common_systemOp cpu next
    | opFp => exact inst.common_opFpOp env cpu next
    | madd | msub | nmsub | nmadd => exact inst.common_fusedOp env cpu next

end DecodedInst32

end Common

/-- The operation of an instruction. -/
def Fetched.op (env : Env) (cpu : Cpu) : Fetched → Op
  | half inst =>
    quadrantOp inst cpu (cpu.pc + 2) (DecodedInst16.decode inst).op
      (DecodedInst16.decode inst).funct3
  | word inst => (DecodedInst32.decode inst).op env cpu (cpu.pc + 4)

def Machine.jump (m : Machine) (next : U32) : Machine := { m with cpu := { m.cpu with pc := next } }

end RiscvRs
