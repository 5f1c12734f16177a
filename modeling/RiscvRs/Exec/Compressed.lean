import RiscvRs.Exec.Float

/-! The second interpreter: compressed instructions, decoded by hand. -/

namespace RiscvRs

open Effects Prog

theorem cregField_lt (x : U16) : (x &&& 0x7).toNat + 8 < 32 := by
  have bound := mask_lt x 0x7
  simp only [BitVec.ofNat_eq_ofNat, BitVec.reduceToNat] at bound
  simp only [BitVec.ofNat_eq_ofNat]
  omega

/-- A three-bit register field selects one of x8..x15. -/
def creg (inst : U16) (shift : Nat) : Fin 32 :=
  ⟨(shiftThenMask inst shift 0x7).toNat + 8, cregField_lt _⟩

/-- A five-bit register field. -/
def regField16 (inst : U16) (shift : Nat) : Fin 32 :=
  ⟨(shiftThenMask inst shift 0x1F).toNat, Nat.lt_succ_of_le (mask_lt _ _)⟩

section Offsets

variable (inst : U16)

def clWordOffset : U32 :=
  ((shiftThenMask inst 10 0x7).setWidth 32 <<< 3)
    ||| ((shiftThenMask inst 6 0x1).setWidth 32 <<< 2)
    ||| ((shiftThenMask inst 5 0x1).setWidth 32 <<< 6)

def clDoubleOffset : U32 :=
  ((shiftThenMask inst 10 0x7).setWidth 32 <<< 3) ||| ((shiftThenMask inst 5 0x3).setWidth 32 <<< 6)

def ciWordSpOffset : U32 :=
  ((shiftThenMask inst 12 0x1).setWidth 32 <<< 5)
    ||| ((shiftThenMask inst 4 0x7).setWidth 32 <<< 2)
    ||| ((shiftThenMask inst 2 0x3).setWidth 32 <<< 6)

def ciDoubleSpOffset : U32 :=
  ((shiftThenMask inst 12 0x1).setWidth 32 <<< 5)
    ||| ((shiftThenMask inst 5 0x3).setWidth 32 <<< 3)
    ||| ((shiftThenMask inst 2 0x7).setWidth 32 <<< 6)

def cssWordSpOffset : U32 :=
  ((shiftThenMask inst 9 0xF).setWidth 32 <<< 2) ||| ((shiftThenMask inst 7 0x3).setWidth 32 <<< 6)

def cssDoubleSpOffset : U32 :=
  ((shiftThenMask inst 10 0x7).setWidth 32 <<< 3) ||| ((shiftThenMask inst 7 0x7).setWidth 32 <<< 6)

/-- The immediate of `C.ADDI4SPN`. -/
def addi4spnImm : U32 :=
  (shiftThenMask inst 7 0x30 ||| shiftThenMask inst 1 0x3C0 ||| shiftThenMask inst 4 0x4
    ||| shiftThenMask inst 2 0x8).setWidth 32

/-- The six-bit immediate shared by the CI instructions. -/
def imm6 : U16 := (shiftThenMask inst 12 1 <<< 5) ||| shiftThenMask inst 2 0x1F

/-- `((imm6 as i16) << 10) >> 10`, as an `i32`. -/
def signExt6 : U32 := ((imm6 inst <<< 10).sshiftRight 10).signExtend 32

/-- The target offset of `C.JAL` and `C.J`. -/
def jumpOffset : U32 :=
  let imm11 := (shiftThenMask inst 12 1 <<< 11) ||| (shiftThenMask inst 8 1 <<< 10)
    ||| (shiftThenMask inst 9 3 <<< 8) ||| (shiftThenMask inst 6 1 <<< 7)
    ||| (shiftThenMask inst 7 1 <<< 6) ||| (shiftThenMask inst 2 1 <<< 5)
    ||| (shiftThenMask inst 11 1 <<< 4) ||| (shiftThenMask inst 3 7 <<< 1)
  ((imm11 <<< 4).sshiftRight 4).signExtend 32

/-- The target offset of `C.BEQZ` and `C.BNEZ`. -/
def branchOffset : U32 :=
  let imm := (shiftThenMask inst 12 1 <<< 8) ||| (shiftThenMask inst 5 3 <<< 6)
    ||| (shiftThenMask inst 2 1 <<< 5) ||| (shiftThenMask inst 10 3 <<< 3)
    ||| (shiftThenMask inst 3 3 <<< 1)
  ((imm <<< 7).sshiftRight 7).signExtend 32

/-- The immediate of `C.ADDI16SP`, already scaled. -/
def addi16spImm : U16 :=
  (shiftThenMask inst 12 1 <<< 9) ||| (shiftThenMask inst 3 3 <<< 7)
    ||| (shiftThenMask inst 5 1 <<< 6) ||| (shiftThenMask inst 2 1 <<< 5)
    ||| (shiftThenMask inst 6 1 <<< 4)

end Offsets

def illegal16 {α : Type} (inst : U16) : Exec α := illegal (inst.setWidth 32)

section Quadrants

variable (env : Env) (inst : U16)

def loadDouble (rd : Fin 32) (addr : U32) : Exec Unit := do
  let low ← onBus (Memory.readU32 env.host addr)
  let high ← onBus (Memory.readU32 env.host (addr + 4))
  modifyCpu (·.writeF64 rd ((high.setWidth 64 <<< 32) ||| low.setWidth 64))

def storeDouble (bits : U64) (addr : U32) : Exec Unit := do
  onBus (Memory.writeU32 addr (bits.setWidth 32))
  onBus (Memory.writeU32 (addr + 4) ((bits >>> 32).setWidth 32))

def loadSingle (rd : Fin 32) (addr : U32) : Exec Unit := do
  let raw ← onBus (Memory.readU32 env.host addr)
  modifyCpu (·.setFreg rd (Cpu.boxed raw))

def loadWord (rd : Fin 32) (addr : U32) : Exec Unit := do
  let val ← onBus (Memory.readU32 env.host addr)
  modifyCpu (·.writeReg rd val)

def execQuadrant0 (funct3 : U8) (nextPc : U32) : Exec U32 := do
  let cpu ← getCpu
  match funct3 with
  | 0 =>
    if addi4spnImm inst = 0 then
      illegal16 inst
    else
      modifyCpu (·.writeReg (creg inst 2) (cpu.readReg 2 + addi4spnImm inst))
      return nextPc
  | 1 =>
    loadDouble env (creg inst 2) (cpu.readReg (creg inst 7) + clDoubleOffset inst)
    return nextPc
  | 2 =>
    loadWord env (creg inst 2) (cpu.readReg (creg inst 7) + clWordOffset inst)
    return nextPc
  | 3 =>
    loadSingle env (creg inst 2) (cpu.readReg (creg inst 7) + clWordOffset inst)
    return nextPc
  | 5 =>
    storeDouble (cpu.readF64 (creg inst 2)) (cpu.readReg (creg inst 7) + clDoubleOffset inst)
    return nextPc
  | 6 =>
    onBus (Memory.writeU32 (cpu.readReg (creg inst 7) + clWordOffset inst)
      (cpu.readReg (creg inst 2)))
    return nextPc
  | 7 =>
    onBus (Memory.writeU32 (cpu.readReg (creg inst 7) + clWordOffset inst)
      ((cpu.fregs (creg inst 2) &&& 0xFFFFFFFF).setWidth 32))
    return nextPc
  | _ => illegal16 inst

/-- `C.ADDI16SP` and `C.LUI`. -/
def execLuiGroup (nextPc : U32) : Exec U32 := do
  let cpu ← getCpu
  let rd := regField16 inst 7
  if rd = 2 then
    if addi16spImm inst = 0 then
      illegal16 inst
    else
      let offset := ((addi16spImm inst <<< 6).sshiftRight 6).signExtend 32
      modifyCpu (·.writeReg 2 (cpu.readReg 2 + offset))
      return nextPc
  else if rd ≠ 0 then
    if imm6 inst = 0 then
      illegal16 inst
    else
      modifyCpu (·.writeReg rd (signExt6 inst <<< 12))
      return nextPc
  else
    illegal16 inst

/-- `C.SRLI`, `C.SRAI`, `C.ANDI` and the register-register group. -/
def execAluGroup (nextPc : U32) : Exec U32 := do
  let cpu ← getCpu
  let rdc := creg inst 7
  let bit12 := shiftThenMask inst 12 1
  match shiftThenMask inst 10 0x3 with
  | 0 | 1 =>
    if bit12 ≠ 0 then
      illegal16 inst
    else
      let shamt := (shiftThenMask inst 2 0x1F).toNat
      if shamt ≠ 0 then
        let src := cpu.readReg rdc
        let val ← (if shiftThenMask inst 10 0x3 = 0 then env.build.shrU32 src shamt
          else env.build.shrI32 src shamt : Exec U32)
        modifyCpu (·.writeReg rdc val)
      return nextPc
  | 2 =>
    modifyCpu (·.writeReg rdc (cpu.readReg rdc &&& signExt6 inst))
    return nextPc
  | _ =>
    if bit12 ≠ 0 then
      illegal16 inst
    else
      let src1 := cpu.readReg rdc
      let src2 := cpu.readReg (creg inst 2)
      let val := match shiftThenMask inst 5 0x3 with
        | 0 => src1 - src2
        | 1 => src1 ^^^ src2
        | 2 => src1 ||| src2
        | _ => src1 &&& src2
      modifyCpu (·.writeReg rdc val)
      return nextPc

def execQuadrant1 (funct3 : U8) (nextPc : U32) : Exec U32 := do
  let cpu ← getCpu
  match funct3 with
  | 0 =>
    let rd := regField16 inst 7
    if rd ≠ 0 ∧ signExt6 inst ≠ 0 then
      modifyCpu (·.writeReg rd (cpu.readReg rd + signExt6 inst))
    return nextPc
  | 1 =>
    modifyCpu (·.writeReg 1 nextPc)
    return cpu.pc + jumpOffset inst
  | 2 =>
    modifyCpu (·.writeReg (regField16 inst 7) (signExt6 inst))
    return nextPc
  | 3 => execLuiGroup inst nextPc
  | 4 => execAluGroup env inst nextPc
  | 5 => return cpu.pc + jumpOffset inst
  | 6 => return if cpu.readReg (creg inst 7) = 0 then cpu.pc + branchOffset inst else nextPc
  | 7 => return if cpu.readReg (creg inst 7) ≠ 0 then cpu.pc + branchOffset inst else nextPc
  | _ => illegal16 inst

/-- `C.JR`, `C.MV`, `C.EBREAK`, `C.JALR` and `C.ADD`. -/
def execJumpGroup (nextPc : U32) : Exec U32 := do
  let cpu ← getCpu
  let rd := regField16 inst 7
  let rs2 := regField16 inst 2
  let bit12 := shiftThenMask inst 12 1
  if bit12 = 0 ∧ rs2 = 0 then
    if rd = 0 then
      illegal16 inst
    else
      return cpu.readReg rd &&& ~~~1
  else if bit12 = 0 ∧ rs2 ≠ 0 then
    if rd ≠ 0 then
      modifyCpu (·.writeReg rd (cpu.readReg rs2))
    return nextPc
  else if rd = 0 ∧ rs2 = 0 then
    modifyCpu fun cpu => { cpu with isHalted := true }
    return nextPc
  else if rs2 = 0 then
    let target := cpu.readReg rd &&& ~~~1
    modifyCpu (·.writeReg 1 nextPc)
    return target
  else
    if rd ≠ 0 then
      modifyCpu (·.writeReg rd (cpu.readReg rd + cpu.readReg rs2))
    return nextPc

def execQuadrant2 (funct3 : U8) (nextPc : U32) : Exec U32 := do
  let cpu ← getCpu
  match funct3 with
  | 0 =>
    let rd := regField16 inst 7
    if shiftThenMask inst 12 1 ≠ 0 then
      illegal16 inst
    else
      let shamt := (shiftThenMask inst 2 0x1F).toNat
      if rd ≠ 0 ∧ shamt ≠ 0 then
        let val ← env.build.shlU32 (cpu.readReg rd) shamt
        modifyCpu (·.writeReg rd val)
      return nextPc
  | 1 =>
    loadDouble env (regField16 inst 7) (cpu.readReg 2 + ciDoubleSpOffset inst)
    return nextPc
  | 2 =>
    if regField16 inst 7 = 0 then
      illegal16 inst
    else
      loadWord env (regField16 inst 7) (cpu.readReg 2 + ciWordSpOffset inst)
      return nextPc
  | 3 =>
    loadSingle env (regField16 inst 7) (cpu.readReg 2 + ciWordSpOffset inst)
    return nextPc
  | 4 => execJumpGroup inst nextPc
  | 5 =>
    storeDouble (cpu.readF64 (regField16 inst 2)) (cpu.readReg 2 + cssDoubleSpOffset inst)
    return nextPc
  | 6 =>
    onBus (Memory.writeU32 (cpu.readReg 2 + cssWordSpOffset inst) (cpu.readReg (regField16 inst 2)))
    return nextPc
  | 7 =>
    onBus (Memory.writeU32 (cpu.readReg 2 + cssWordSpOffset inst)
      ((cpu.fregs (regField16 inst 2) &&& 0xFFFFFFFF).setWidth 32))
    return nextPc
  | _ => illegal16 inst

/-- The `(op, funct3)` match, one quadrant at a time. -/
def execQuadrant (op funct3 : U8) (nextPc : U32) : Exec U32 :=
  match op with
  | 0 => execQuadrant0 env inst funct3 nextPc
  | 1 => execQuadrant1 env inst funct3 nextPc
  | 2 => execQuadrant2 env inst funct3 nextPc
  | _ => illegal16 inst

end Quadrants

def executeInst16 (env : Env) (inst : U16) : Exec Unit := do
  let decoded := DecodedInst16.decode inst
  let cpu ← getCpu
  let nextPc := cpu.pc + 2
  let nextPc ← execQuadrant env inst decoded.op decoded.funct3 nextPc
  modifyCpu fun cpu => { cpu with pc := nextPc }

/-- `execute_inst16` without its layers. -/
theorem executeInst16_run (env : Env) (inst : U16) (m : Machine) :
    (executeInst16 env inst).run m =
      ((execQuadrant env inst (DecodedInst16.decode inst).op (DecodedInst16.decode inst).funct3
        (m.cpu.pc + 2)).run m).andThen fun next m' =>
          .ok () { m' with cpu := { m'.cpu with pc := next } } :=
  rfl

end RiscvRs
