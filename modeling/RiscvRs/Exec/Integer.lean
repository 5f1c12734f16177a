import RiscvRs.Exec.Syscall

/-! The executors of the base, multiply, atomic and system instructions. -/

namespace RiscvRs

open Effects Prog

def illegal {α : Type} (raw : U32) : Exec α := do
  let cpu ← getCpu
  fail (.illegalInstruction cpu.pc raw)

/-- A decoded result, or the illegal-instruction error where decoding found none. -/
def orIllegal {α : Type} (raw : U32) (result : Option α) : Exec α :=
  match result with
  | some a => pure a
  | none => illegal raw

def flag (condition : Bool) : U32 := if condition then 1 else 0

def branchTaken (funct3 : U8) (src1 src2 : U32) : Option Bool :=
  match funct3 with
  | 0 => some (src1 == src2)
  | 1 => some (src1 != src2)
  | 4 => some (src1.slt src2)
  | 5 => some (src2.sle src1)
  | 6 => some (src1.ult src2)
  | 7 => some (src2.ule src1)
  | _ => none

section Checked

variable (build : Build)

/-- Plain `<<` on `u32`. An amount out of range panics, or is masked in a build without checks. -/
def Build.shlU32 (a : U32) (amount : Nat) : Exec U32 :=
  if build.overflowChecks ∧ 32 ≤ amount then panic else pure (a <<< (amount % 32))

/-- Plain `>>` on `u32`. -/
def Build.shrU32 (a : U32) (amount : Nat) : Exec U32 :=
  if build.overflowChecks ∧ 32 ≤ amount then panic else pure (a >>> (amount % 32))

/-- Plain `>>` on `i32`. -/
def Build.shrI32 (a : U32) (amount : Nat) : Exec U32 :=
  if build.overflowChecks ∧ 32 ≤ amount then panic else pure (a.sshiftRight (amount % 32))

/-- Plain `*` on `i64`. -/
def Build.mulI64 (a b : U64) : Exec U64 :=
  if build.overflowChecks ∧ ¬(-2 ^ 63 ≤ a.toInt * b.toInt ∧ a.toInt * b.toInt < 2 ^ 63) then panic
  else pure (a * b)

/-- Plain `*` on `u64`. -/
def Build.mulU64 (a b : U64) : Exec U64 :=
  if build.overflowChecks ∧ 2 ^ 64 ≤ a.toNat * b.toNat then panic else pure (a * b)

end Checked

/-- `i32::wrapping_div`: wraps at `MIN / -1`, and panics on a zero divisor in every build. -/
def wrappingDiv (a b : U32) : Exec U32 := if b = 0 then panic else pure (a.sdiv b)

/-- `i32::wrapping_rem`. -/
def wrappingRem (a b : U32) : Exec U32 := if b = 0 then panic else pure (a.srem b)

/-- `u32::checked_div`. -/
def checkedDiv (a b : U32) : Option U32 := if b = 0 then none else some (a / b)

/-- Plain `%` on `u32`. -/
def remU32 (a b : U32) : Exec U32 := if b = 0 then panic else pure (a % b)

def opImmResult (build : Build) (raw : U32) (funct3 funct7 : U8) (src1 imm : U32)
    (shamt : Nat) : Exec U32 :=
  match funct3 with
  | 0 => pure (src1 + imm)
  | 2 => pure (flag (src1.slt imm))
  | 3 => pure (flag (src1.ult imm))
  | 4 => pure (src1 ^^^ imm)
  | 6 => pure (src1 ||| imm)
  | 7 => pure (src1 &&& imm)
  | 1 => build.shlU32 src1 shamt
  | 5 => if funct7 = 0x20 then build.shrI32 src1 shamt else build.shrU32 src1 shamt
  | _ => illegal raw

def opResult (build : Build) (raw : U32) (funct7 funct3 : U8) (src1 src2 : U32) : Exec U32 :=
  match funct7, funct3 with
  | 0x00, 0 => pure (src1 + src2)
  | 0x20, 0 => pure (src1 - src2)
  | 0x00, 1 => build.shlU32 src1 (src2 &&& 0x1F).toNat
  | 0x00, 2 => pure (flag (src1.slt src2))
  | 0x00, 3 => pure (flag (src1.ult src2))
  | 0x00, 4 => pure (src1 ^^^ src2)
  | 0x00, 5 => build.shrU32 src1 (src2 &&& 0x1F).toNat
  | 0x20, 5 => build.shrI32 src1 (src2 &&& 0x1F).toNat
  | 0x00, 6 => pure (src1 ||| src2)
  | 0x00, 7 => pure (src1 &&& src2)
  | _, _ => illegal raw

/-- `OP_LOAD`: the access and its extension to 32 bits. -/
def loadValue (env : Env) (raw : U32) (funct3 : U8) (addr : U32) : Exec U32 :=
  match funct3 with
  | 0 => do return (← onBus (Memory.readU8 env.host addr)).signExtend 32
  | 1 => do return (← onBus (Memory.readU16 env.host addr)).signExtend 32
  | 2 => onBus (Memory.readU32 env.host addr)
  | 4 => do return (← onBus (Memory.readU8 env.host addr)).setWidth 32
  | 5 => do return (← onBus (Memory.readU16 env.host addr)).setWidth 32
  | _ => illegal raw

/-- `OP_STORE`: the low byte, halfword or word of the source. -/
def storeValue (raw : U32) (funct3 : U8) (addr val : U32) : Exec Unit :=
  match funct3 with
  | 0 => onBus (Memory.writeU8 addr (val.setWidth 8))
  | 1 => onBus (Memory.writeU16 addr (val.setWidth 16))
  | 2 => onBus (Memory.writeU32 addr val)
  | _ => illegal raw

/-- Executes and returns the next `pc`, which the source updates in place. -/
def execRv32i (env : Env) (inst : DecodedInst32) (nextPc : U32) : Exec U32 := do
  let cpu ← getCpu
  match Opcode.ofBits? inst.opcode with
  | some .lui =>
    modifyCpu (·.writeReg inst.rd inst.uImm)
    return nextPc
  | some .auipc =>
    modifyCpu (·.writeReg inst.rd (cpu.pc + inst.uImm))
    return nextPc
  | some .jal =>
    modifyCpu (·.writeReg inst.rd nextPc)
    return cpu.pc + inst.jImm
  | some .jalr =>
    let target := (cpu.readReg inst.rs1 + inst.iImm) &&& ~~~1
    modifyCpu (·.writeReg inst.rd nextPc)
    return target
  | some .branch =>
    let take ← orIllegal inst.raw
      (branchTaken inst.funct3 (cpu.readReg inst.rs1) (cpu.readReg inst.rs2))
    return if take then cpu.pc + inst.bImm else nextPc
  | some .load =>
    let addr := cpu.readReg inst.rs1 + inst.iImm
    let val ← loadValue env inst.raw inst.funct3 addr
    modifyCpu (·.writeReg inst.rd val)
    return nextPc
  | some .store =>
    let addr := cpu.readReg inst.rs1 + inst.sImm
    storeValue inst.raw inst.funct3 addr (cpu.readReg inst.rs2)
    return nextPc
  | some .imm =>
    let shamt := inst.rs2.val &&& 0x1F
    let val ← opImmResult env.build inst.raw inst.funct3 inst.funct7
      (cpu.readReg inst.rs1) inst.iImm shamt
    modifyCpu (·.writeReg inst.rd val)
    return nextPc
  | some .op =>
    let val ← opResult env.build inst.raw inst.funct7 inst.funct3 (cpu.readReg inst.rs1)
      (cpu.readReg inst.rs2)
    modifyCpu (·.writeReg inst.rd val)
    return nextPc
  | some .miscMem => return nextPc
  | _ => illegal inst.raw

def mulDivResult (build : Build) (raw : U32) (funct3 : U8) (src1 src2 : U32) : Exec U32 :=
  match funct3 with
  | 0 => pure (src1 * src2)
  | 1 => do
    let product ← build.mulI64 (src1.signExtend 64) (src2.signExtend 64)
    return (product.sshiftRight 32 &&& 0xFFFFFFFF).setWidth 32
  | 2 => do
    let product ← build.mulI64 (src1.signExtend 64) (src2.setWidth 64)
    return (product.sshiftRight 32 &&& 0xFFFFFFFF).setWidth 32
  | 3 => do
    let product ← build.mulU64 (src1.setWidth 64) (src2.setWidth 64)
    return (product >>> 32 &&& 0xFFFFFFFF).setWidth 32
  | 4 => if src2 = 0 then pure 0xFFFFFFFF else wrappingDiv src1 src2
  | 5 => pure ((checkedDiv src1 src2).getD 0xFFFFFFFF)
  | 6 => if src2 = 0 then pure src1 else wrappingRem src1 src2
  | 7 => if src2 = 0 then pure src1 else remU32 src1 src2
  | _ => illegal raw

def execRv32m (env : Env) (inst : DecodedInst32) : Exec Unit := do
  let cpu ← getCpu
  let val ← mulDivResult env.build inst.raw inst.funct3 (cpu.readReg inst.rs1)
    (cpu.readReg inst.rs2)
  modifyCpu (·.writeReg inst.rd val)

/-- The value an atomic writes back; `none` is an unknown `funct5`. -/
def amoResult (funct5 : U8) (oldVal src2 : U32) : Option U32 :=
  match funct5 with
  | 0x02 => some oldVal
  | 0x03 => some src2
  | 0x01 => some src2
  | 0x00 => some (oldVal + src2)
  | 0x04 => some (oldVal ^^^ src2)
  | 0x0C => some (oldVal &&& src2)
  | 0x08 => some (oldVal ||| src2)
  | 0x10 => some (if src2.slt oldVal then src2 else oldVal)
  | 0x14 => some (if oldVal.slt src2 then src2 else oldVal)
  | 0x18 => some (if src2.ult oldVal then src2 else oldVal)
  | 0x1C => some (if oldVal.ult src2 then src2 else oldVal)
  | _ => none

def execRv32a (env : Env) (inst : DecodedInst32) : Exec Unit := do
  let cpu ← getCpu
  let funct5 := inst.funct7 >>> 2
  let addr := cpu.readReg inst.rs1
  let src2 := cpu.readReg inst.rs2
  let oldVal ← onBus (Memory.readU32 env.host addr)
  let newVal ← orIllegal inst.raw (amoResult funct5 oldVal src2)
  let rdVal := if funct5 = 0x03 then 0 else oldVal
  if funct5 ≠ 0x02 then
    onBus (Memory.writeU32 addr newVal)
  modifyCpu (·.writeReg inst.rd rdVal)

/-- `MRET`: back to `mepc`, with `MIE` restored from `MPIE`. -/
def Cpu.mret (cpu : Cpu) : Cpu :=
  let status := cpu.csrs.get mstatus
  let newStatus := (status &&& ~~~mstatusMie) ||| mstatusMpie
  let newStatus := if status &&& mstatusMpie ≠ 0 then newStatus ||| mstatusMie else newStatus
  { cpu with csrs := cpu.csrs.set mstatus newStatus }

def csrResult (funct3 : U8) (oldVal src1Val : U32) (rs1 : Fin 32) : U32 :=
  match funct3 with
  | 1 => src1Val
  | 2 => oldVal ||| src1Val
  | 3 => oldVal &&& ~~~src1Val
  | 5 => BitVec.ofNat 32 rs1
  | 6 => oldVal ||| BitVec.ofNat 32 rs1
  | 7 => oldVal &&& ~~~(BitVec.ofNat 32 rs1)
  | _ => oldVal

def execCsr (env : Env) (inst : DecodedInst32) (nextPc : U32) : Exec U32 := do
  let cpu ← getCpu
  if inst.funct3 = 0 then
    let imm12 := inst.raw >>> 20
    if imm12 = 0 then
      handleEcall env
      return nextPc
    else if imm12 = 1 then
      modifyCpu fun cpu => { cpu with isHalted := true }
      return nextPc
    else if imm12 = 0x302 then
      let epc := cpu.csrs.get mepc
      modifyCpu Cpu.mret
      return if epc ≠ 0 then epc else nextPc
    else
      return nextPc
  else
    let csrNum := ((inst.raw >>> 20) &&& 0xFFF).setWidth 16
    let oldVal := cpu.csrs.get csrNum
    let newVal := csrResult inst.funct3 oldVal (cpu.readReg inst.rs1) inst.rs1
    modifyCpu fun cpu => { cpu with csrs := cpu.csrs.set csrNum newVal }
    modifyCpu (·.writeReg inst.rd oldVal)
    return nextPc

end RiscvRs
