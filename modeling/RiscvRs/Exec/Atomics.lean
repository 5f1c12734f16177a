import RiscvRs.Exec.Decoding

/-! The A extension as read-modify-write on one word. -/

namespace RiscvRs

open Effects Prog Bytes

/-- The word that four bytes spell. -/
def Memory.wordAt (m : Memory) (addr : U32) : U32 := BitVec.ofNat 32 (leNat (span m.flat addr 4))

/-- The nine read-modify-write operations. -/
inductive Amo where
  | swap | add | xor | and | or | min | max | minu | maxu
deriving DecidableEq, Repr

namespace Amo

def funct5 : Amo → U8
  | swap => 0x01
  | add => 0x00
  | xor => 0x04
  | and => 0x0C
  | or => 0x08
  | min => 0x10
  | max => 0x14
  | minu => 0x18
  | maxu => 0x1C

/-- What becomes of the old word: `min` and `max` compare as signed integers. -/
def apply : Amo → U32 → U32 → U32
  | swap, _, src => src
  | add, old, src => old + src
  | xor, old, src => old ^^^ src
  | and, old, src => old &&& src
  | or, old, src => old ||| src
  | min, old, src => if old.toInt ≤ src.toInt then old else src
  | max, old, src => if src.toInt ≤ old.toInt then old else src
  | minu, old, src => if old.toNat ≤ src.toNat then old else src
  | maxu, old, src => if src.toNat ≤ old.toNat then old else src

theorem slt_pick (x y : U32) (less rest : U32) :
    (if x.slt y then less else rest) = if y.toInt ≤ x.toInt then rest else less := by
  by_cases smaller : x.toInt < y.toInt
  · rw [if_pos (BitVec.slt_iff_toInt_lt.mpr smaller), if_neg (not_le.mpr smaller)]
  · rw [if_neg (mt BitVec.slt_iff_toInt_lt.mp smaller), if_pos (not_lt.mp smaller)]

theorem ult_pick (x y : U32) (less rest : U32) :
    (if x.ult y then less else rest) = if y.toNat ≤ x.toNat then rest else less := by
  by_cases smaller : x.toNat < y.toNat
  · rw [if_pos (BitVec.ult_iff_toNat_lt.mpr smaller), if_neg (not_le.mpr smaller)]
  · rw [if_neg (mt BitVec.ult_iff_toNat_lt.mp smaller), if_pos (not_lt.mp smaller)]

/-- The executor's table has the operations under their numbers. -/
theorem amoResult_funct5 (op : Amo) (old src : U32) :
    amoResult op.funct5 old src = some (op.apply old src) := by
  cases op with
  | swap | add | xor | and | or => rfl
  | min => exact congrArg some (slt_pick src old src old)
  | max => exact congrArg some (slt_pick old src src old)
  | minu => exact congrArg some (ult_pick src old src old)
  | maxu => exact congrArg some (ult_pick old src src old)

theorem funct5_ne (op : Amo) : op.funct5 ≠ 0x02 ∧ op.funct5 ≠ 0x03 := by
  cases op <;> decide

end Amo

/-- The word stored is the word found. -/
theorem wordAt_of_overlay {m m' : Memory} {addr val : U32}
    (flat : m'.flat = overlay m.flat addr 4 val) :
    m'.wordAt addr = val := by
  apply BitVec.eq_of_toNat_eq
  rw [Memory.wordAt, flat, span_overlay _ _ _ _ (by decide), leNat_leBytes, BitVec.toNat_ofNat]
  have bound := val.isLt
  omega

/-- The four bytes from `addr` on. -/
def InWord (addr x : U32) : Prop := (x - addr).toNat < 4

theorem outside_of_overlay {m m' : Memory} {addr val x : U32}
    (flat : m'.flat = overlay m.flat addr 4 val)
    (outside : ¬InWord addr x) : m'.flat x = m.flat x := by
  rw [flat]
  exact if_neg outside

section Words

variable {env : Env} {raw : U32} {inst : DecodedInst32}

theorem executeInst32_amo (decoded : DecodedInst32.decode raw = inst)
    (major : inst.opcode = Opcode.amo.bits)
    (m : Machine) : (executeInst32 env raw).run m =
      (((inst.amoOp m.cpu (m.cpu.pc + 4)).exec env).run m).andThen fun next m' =>
        .ok () (m'.jump next) := by
  have operation : inst.op env m.cpu (m.cpu.pc + 4) = inst.amoOp m.cpu (m.cpu.pc + 4) := by
    rw [DecodedInst32.op, major, Opcode.ofBits?_bits]
  rw [executeInst32_run, decoded, dispatch_exec, operation]
  rfl

/-- A read-modify-write on RAM. -/
theorem exec_amo_below (env : Env) (op : Amo) (raw : U32) (rd : Fin 32) {addr : U32}
    (src next : U32) (m : Machine)
    (below : addr.toNat + 4 ≤ 0xFFFF0000) :
    ∃ mem : Memory, ((Op.amo raw op.funct5 rd addr src next).exec env).run m =
        .ok next ⟨m.cpu.writeReg rd (m.bus.mem.wordAt addr), { m.bus with mem := mem }⟩ ∧
      mem.flat = overlay m.bus.mem.flat addr 4 (op.apply (m.bus.mem.wordAt addr) src) ∧
      mem.brkPtr = m.bus.mem.brkPtr ∧ mem.initialBrk = m.bus.mem.initialBrk := by
  obtain ⟨notLr, notSc⟩ := op.funct5_ne
  obtain ⟨mem, written, flat, brk⟩ :=
    writeAt_below (ε := CpuError) m.bus .word below (op.apply (m.bus.mem.wordAt addr) src)
  refine ⟨mem, ?_, flat, brk⟩
  have read := run_onBus (readU32_below (ε := CpuError) env.host m.bus below)
  have stored := run_onBus (m := m) written
  change (onBus (Memory.writeU32 addr (op.apply (m.bus.mem.wordAt addr) src))).run m = _ at stored
  rw [Op.exec, run_bind, read, Outcome.andThen_ok]
  change (orIllegal raw (amoResult op.funct5 (m.bus.mem.wordAt addr) src) >>= _).run m = _
  rw [op.amoResult_funct5]
  dsimp only [orIllegal]
  rw [pure_bind, if_pos notLr, if_neg notSc, run_bind, stored]
  rfl

/-- LR reads the word and writes nothing. -/
theorem exec_lr_below (env : Env) (raw : U32) (rd : Fin 32) {addr : U32} (src next : U32) (m : Machine)
    (below : addr.toNat + 4 ≤ 0xFFFF0000) :
    ((Op.amo raw 0x02 rd addr src next).exec env).run m =
      .ok next { m with cpu := m.cpu.writeReg rd (m.bus.mem.wordAt addr) } := by
  have read := run_onBus (readU32_below (ε := CpuError) env.host m.bus below)
  rw [Op.exec, run_bind, read, Outcome.andThen_ok]
  rfl

/-- An AMO on RAM, aligned or not, is a read-modify-write of the one word at `rs1`: the
operands are the old word and the `rs2` from before, whatever register `rd` is. LR only reads. -/
theorem amo_read_modify_write (env : Env) (raw : U32) (inst : DecodedInst32) (m : Machine)
    (decoded : DecodedInst32.decode raw = inst) (major : inst.opcode = Opcode.amo.bits)
    (below : (m.cpu.readReg inst.rs1).toNat + 4 ≤ 0xFFFF0000) :
    (∀ op : Amo, inst.funct7 >>> 2 = op.funct5 →
      ∃ mem : Memory, (executeInst32 env raw).run m =
          .ok () ⟨{ m.cpu.writeReg inst.rd (m.bus.mem.wordAt (m.cpu.readReg inst.rs1)) with
            pc := m.cpu.pc + 4 },
            { m.bus with mem := mem }⟩ ∧
        mem.wordAt (m.cpu.readReg inst.rs1) =
          op.apply (m.bus.mem.wordAt (m.cpu.readReg inst.rs1)) (m.cpu.readReg inst.rs2) ∧
        (∀ x, ¬InWord (m.cpu.readReg inst.rs1) x → mem.flat x = m.bus.mem.flat x) ∧
        mem.brkPtr = m.bus.mem.brkPtr ∧ mem.initialBrk = m.bus.mem.initialBrk) ∧
    (inst.funct7 >>> 2 = 0x02 → (executeInst32 env raw).run m =
      .ok () { m with
        cpu := { m.cpu.writeReg inst.rd (m.bus.mem.wordAt (m.cpu.readReg inst.rs1)) with
          pc := m.cpu.pc + 4 } }) := by
  rw [executeInst32_amo decoded major, DecodedInst32.amoOp]
  constructor
  · intro op named
    obtain ⟨mem, run, flat, brk⟩ :=
      exec_amo_below env op inst.raw inst.rd (m.cpu.readReg inst.rs2) (m.cpu.pc + 4) m below
    refine ⟨mem, ?_, wordAt_of_overlay flat, fun x => outside_of_overlay flat, brk⟩
    rw [named, run]
    rfl
  · intro named
    rw [named, exec_lr_below env inst.raw inst.rd (m.cpu.readReg inst.rs2) (m.cpu.pc + 4) m below]
    rfl

/-- `amomax.w x1, x1, (x1)` with `x1 = 0xFFFE`: the address register is destination and
operand, and the word crosses a page. -/
theorem amo_read_modify_write_aliased :
    ∃ m : Machine, ∃ mem : Memory, (executeInst32 default 0xA010A0AF).run m =
        .ok () ⟨{ m.cpu.writeReg 1 (m.bus.mem.wordAt 0xFFFE) with pc := m.cpu.pc + 4 },
          { m.bus with mem := mem }⟩ ∧
      mem.wordAt 0xFFFE = 0xFFFE := by
  obtain ⟨mem, run, word, -⟩ := (amo_read_modify_write default 0xA010A0AF _
    { Machine.new with cpu := Cpu.new.writeReg 1 0xFFFE } rfl rfl (by decide)).1 .max rfl
  exact ⟨_, mem, run, word⟩

end Words

end RiscvRs
