import RiscvRs.Exec.Integer

/-! The floating-point executor. Loads, stores, moves, classes and comparisons
are exact on bit patterns; rounding arithmetic comes from the `Fpu`. -/

namespace RiscvRs

open Effects Prog Ieee

def execLoadFp (env : Env) (inst : DecodedInst32) : Exec Unit := do
  let cpu ← getCpu
  let addr := cpu.readReg inst.rs1 + inst.iImm
  if inst.funct3 = 2 then
    let raw ← onBus (Memory.readU32 env.host addr)
    modifyCpu (·.setFreg inst.rd (Cpu.boxed raw))
  else if inst.funct3 = 3 then
    let low ← onBus (Memory.readU32 env.host addr)
    let addr4 ← env.build.addU32 addr 4
    let high ← onBus (Memory.readU32 env.host addr4)
    modifyCpu (·.writeF64 inst.rd ((high.setWidth 64 <<< 32) ||| low.setWidth 64))
  else
    illegal inst.raw

def execStoreFp (env : Env) (inst : DecodedInst32) : Exec Unit := do
  let cpu ← getCpu
  let addr := cpu.readReg inst.rs1 + inst.sImm
  if inst.funct3 = 2 then
    let bits := (cpu.fregs inst.rs2 &&& 0xFFFFFFFF).setWidth 32
    onBus (Memory.writeU32 addr bits)
  else if inst.funct3 = 3 then
    let bits := cpu.readF64 inst.rs2
    onBus (Memory.writeU32 addr (bits.setWidth 32))
    let addr4 ← env.build.addU32 addr 4
    onBus (Memory.writeU32 addr4 ((bits >>> 32).setWidth 32))
  else
    illegal inst.raw

/-- `FSGNJ`, `FSGNJN` and `FSGNJX` at one width. -/
def signInject {w : Nat} (magnitude sign : BitVec w) (funct3 : U8) (b1 b2 : BitVec w) :
    Option (BitVec w) :=
  match funct3 with
  | 0 => some ((b1 &&& magnitude) ||| (b2 &&& sign))
  | 1 => some ((b1 &&& magnitude) ||| (~~~b2 &&& sign))
  | 2 => some ((b1 &&& magnitude) ||| ((b1 ^^^ b2) &&& sign))
  | _ => none

/-- `FMIN` and `FMAX`: a NaN operand gives the other operand. -/
def minMax {w : Nat} (isNan : BitVec w → Bool) (min max : BitVec w → BitVec w → BitVec w)
    (funct3 : U8) (s1 s2 : BitVec w) : Option (BitVec w) :=
  match funct3 with
  | 0 => some (if isNan s1 then s2 else if isNan s2 then s1 else min s1 s2)
  | 1 => some (if isNan s1 then s2 else if isNan s2 then s1 else max s1 s2)
  | _ => none

/-- `FLE`, `FLT` and `FEQ` at one width. -/
def compareFp (format : Format) (funct3 : U8) (s1 s2 : Nat) : Option U32 :=
  match funct3 with
  | 0 => some (flag (format.le s1 s2))
  | 1 => some (flag (format.lt s1 s2))
  | 2 => some (flag (format.eq s1 s2))
  | _ => none

/-- The decision tree of `FCLASS`. -/
def classMask (format : Format) (isNeg isQuiet : Bool) (bits : Nat) : U32 :=
  if format.isInfinite bits then
    if isNeg then 1 <<< 0 else 1 <<< 7
  else if format.isNan bits then
    if isQuiet then 1 <<< 9 else 1 <<< 8
  else if format.isZero bits then
    if isNeg then 1 <<< 3 else 1 <<< 4
  else if format.isSubnormal bits then
    if isNeg then 1 <<< 2 else 1 <<< 5
  else if isNeg then 1 <<< 1
  else 1 <<< 6

def classMaskS (s : U32) : U32 :=
  classMask single (s &&& 0x80000000 != 0) (s &&& 0x00400000 != 0) s.toNat

def classMaskD (d : U64) : U32 :=
  classMask double (d &&& 0x8000000000000000 != 0) (d &&& 0x0008000000000000 != 0) d.toNat

/-- `as i32`, then the register's `u32`. -/
def toI32 (format : Format) (bits : Nat) : U32 :=
  BitVec.ofInt 32 (format.toIntSaturating (-2 ^ 31) (2 ^ 31 - 1) bits)

/-- `as u32`. -/
def toU32 (format : Format) (bits : Nat) : U32 :=
  BitVec.ofInt 32 (format.toIntSaturating 0 (2 ^ 32 - 1) bits)

/-- `OP_OP_FP` with `fmt == 0`. -/
def execOpFpS (env : Env) (inst : DecodedInst32) : Exec Unit := do
  let cpu ← getCpu
  let s1 := cpu.readF32 inst.rs1
  let s2 := cpu.readF32 inst.rs2
  match inst.funct7 >>> 2 with
  | 0x00 => modifyCpu (·.writeF32 inst.rd (env.fpu.addS s1 s2))
  | 0x01 => modifyCpu (·.writeF32 inst.rd (env.fpu.subS s1 s2))
  | 0x02 => modifyCpu (·.writeF32 inst.rd (env.fpu.mulS s1 s2))
  | 0x03 => modifyCpu (·.writeF32 inst.rd (env.fpu.divS s1 s2))
  | 0x0B => modifyCpu (·.writeF32 inst.rd (env.fpu.sqrtS s1))
  | 0x04 => do
    let resBits ← orIllegal inst.raw (signInject 0x7FFFFFFF 0x80000000 inst.funct3 s1 s2)
    modifyCpu (·.setFreg inst.rd (Cpu.boxed resBits))
  | 0x05 => do
    let res ← orIllegal inst.raw
      (minMax (fun s => single.isNan s.toNat) env.fpu.minS env.fpu.maxS inst.funct3 s1 s2)
    modifyCpu (·.writeF32 inst.rd res)
  | 0x18 =>
    modifyCpu (·.writeReg inst.rd
      (if inst.rs2 = 0 then toI32 single s1.toNat else toU32 single s1.toNat))
  | 0x1A =>
    let val := cpu.readReg inst.rs1
    modifyCpu (·.writeF32 inst.rd (if inst.rs2 = 0 then env.fpu.i32ToS val else env.fpu.u32ToS val))
  | 0x1C =>
    if inst.funct3 = 0 then
      modifyCpu (·.writeReg inst.rd ((cpu.fregs inst.rs1 &&& 0xFFFFFFFF).setWidth 32))
    else if inst.funct3 = 1 then
      modifyCpu (·.writeReg inst.rd (classMaskS s1))
  | 0x1E => modifyCpu (·.setFreg inst.rd (Cpu.boxed (cpu.readReg inst.rs1)))
  | 0x14 => do
    let res ← orIllegal inst.raw (compareFp single inst.funct3 s1.toNat s2.toNat)
    modifyCpu (·.writeReg inst.rd res)
  | 0x08 => modifyCpu (·.writeF32 inst.rd (env.fpu.dToS (cpu.readF64 inst.rs1)))
  | _ => illegal inst.raw

/-- `OP_OP_FP` with `fmt == 1`. -/
def execOpFpD (env : Env) (inst : DecodedInst32) : Exec Unit := do
  let cpu ← getCpu
  let d1 := cpu.readF64 inst.rs1
  let d2 := cpu.readF64 inst.rs2
  match inst.funct7 >>> 2 with
  | 0x00 => modifyCpu (·.writeF64 inst.rd (env.fpu.addD d1 d2))
  | 0x01 => modifyCpu (·.writeF64 inst.rd (env.fpu.subD d1 d2))
  | 0x02 => modifyCpu (·.writeF64 inst.rd (env.fpu.mulD d1 d2))
  | 0x03 => modifyCpu (·.writeF64 inst.rd (env.fpu.divD d1 d2))
  | 0x0B => modifyCpu (·.writeF64 inst.rd (env.fpu.sqrtD d1))
  | 0x04 => do
    let resBits ← orIllegal inst.raw
      (signInject 0x7FFFFFFFFFFFFFFF 0x8000000000000000 inst.funct3 d1 d2)
    modifyCpu (·.setFreg inst.rd resBits)
  | 0x05 => do
    let res ← orIllegal inst.raw
      (minMax (fun d => double.isNan d.toNat) env.fpu.minD env.fpu.maxD inst.funct3 d1 d2)
    modifyCpu (·.writeF64 inst.rd res)
  | 0x08 => modifyCpu (·.writeF64 inst.rd (env.fpu.sToD (cpu.readF32 inst.rs1)))
  | 0x18 =>
    modifyCpu (·.writeReg inst.rd
      (if inst.rs2 = 0 then toI32 double d1.toNat else toU32 double d1.toNat))
  | 0x1A =>
    let val := cpu.readReg inst.rs1
    modifyCpu (·.writeF64 inst.rd (if inst.rs2 = 0 then env.fpu.i32ToD val else env.fpu.u32ToD val))
  | 0x1C =>
    if inst.funct3 = 1 then
      modifyCpu (·.writeReg inst.rd (classMaskD d1))
  | 0x14 => do
    let res ← orIllegal inst.raw (compareFp double inst.funct3 d1.toNat d2.toNat)
    modifyCpu (·.writeReg inst.rd res)
  | _ => illegal inst.raw

/-- The four fused forms: the product and the sum are rounded separately, and
`negate` flips the sign bit. -/
def fusedResult {w : Nat} (mul add sub : BitVec w → BitVec w → BitVec w)
    (negate : BitVec w → BitVec w)
    (opcode : U8) (s1 s2 s3 : BitVec w) : Option (BitVec w) :=
  match Opcode.ofBits? opcode with
  | some .madd => some (add (mul s1 s2) s3)
  | some .msub => some (sub (mul s1 s2) s3)
  | some .nmsub => some (negate (sub (mul s1 s2) s3))
  | some .nmadd => some (negate (add (mul s1 s2) s3))
  | _ => none

def execFused (env : Env) (inst : DecodedInst32) : Exec Unit := do
  let cpu ← getCpu
  let fmt : U8 := (shiftThenMask inst.raw 25 3).setWidth 8
  if fmt = 0 then
    let res ← orIllegal inst.raw
      (fusedResult env.fpu.mulS env.fpu.addS env.fpu.subS (0x80000000 ^^^ ·)
      inst.opcode (cpu.readF32 inst.rs1) (cpu.readF32 inst.rs2) (cpu.readF32 inst.rs3))
    modifyCpu (·.writeF32 inst.rd res)
  else if fmt = 1 then
    let res ← orIllegal inst.raw
      (fusedResult env.fpu.mulD env.fpu.addD env.fpu.subD (0x8000000000000000 ^^^ ·)
      inst.opcode (cpu.readF64 inst.rs1) (cpu.readF64 inst.rs2) (cpu.readF64 inst.rs3))
    modifyCpu (·.writeF64 inst.rd res)
  else
    illegal inst.raw

def execRv32fd (env : Env) (inst : DecodedInst32) : Exec Unit :=
  match Opcode.ofBits? inst.opcode with
  | some .loadFp => execLoadFp env inst
  | some .storeFp => execStoreFp env inst
  | some .opFp =>
    if inst.funct7 &&& 0x3 = 0 then execOpFpS env inst
    else if inst.funct7 &&& 0x3 = 1 then execOpFpD env inst
    else illegal inst.raw
  | some .madd | some .msub | some .nmsub | some .nmadd => execFused env inst
  | _ => illegal inst.raw

/-- `execute_inst32`: decode, run one executor, then move `pc`. -/
def executeInst32 (env : Env) (raw : U32) : Exec Unit := do
  let inst := DecodedInst32.decode raw
  let cpu ← getCpu
  let nextPc := cpu.pc + 4
  let nextPc ← dispatch inst cpu.pc nextPc
  modifyCpu fun cpu => { cpu with pc := nextPc }
where
  dispatch (inst : DecodedInst32) (pc nextPc : U32) : Exec U32 :=
    match Opcode.ofBits? inst.opcode with
    | some .op =>
      if inst.funct7 = 0x01 then do
        execRv32m env inst
        return nextPc
      else execRv32i env inst nextPc
    | some .lui | some .auipc | some .jal | some .jalr | some .branch | some .load | some .store
    | some .imm | some .miscMem => execRv32i env inst nextPc
    | some .amo => do
      execRv32a env inst
      return nextPc
    | some .loadFp | some .storeFp | some .madd | some .msub | some .nmsub | some .nmadd
    | some .opFp => do
      execRv32fd env inst
      return nextPc
    | some .system => execCsr env inst nextPc
    | none => fail (.unknownOpcode pc inst.opcode)

/-- `execute_inst32` without its layers. -/
theorem executeInst32_run (env : Env) (raw : U32) (m : Machine) :
    (executeInst32 env raw).run m =
      ((executeInst32.dispatch env (DecodedInst32.decode raw) m.cpu.pc (m.cpu.pc + 4)).run m).andThen
        fun next m' => .ok () { m' with cpu := { m'.cpu with pc := next } } :=
  rfl

end RiscvRs
