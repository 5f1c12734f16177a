import RiscvRs.Exec.Values
import RiscvRs.Machine.Fields
import RiscvRs.Memory.Flat

/-! The base instructions of the 32-bit interpreter against the reference
semantics over integers. -/

namespace RiscvRs

open Effects Prog Bytes

/-- The state the manual speaks about. -/
def Machine.reference (m : Machine) : Isa.State where
  x r := (m.cpu.readReg r).toNat
  pc := m.cpu.pc.toNat
  mem := Isa.ofStore m.bus.mem.flat

/-- What no base instruction changes: every processor field but registers and
`pc`, the cell behind `x0`, the host side, and the program break. -/
structure Keeps (m m' : Machine) : Prop where
  cpu : m'.cpu = { m.cpu with regs := m'.cpu.regs, pc := m'.cpu.pc }
  zero : m'.cpu.regs 0 = m.cpu.regs 0
  world : m'.bus.world = m.bus.world
  brkPtr : m'.bus.mem.brkPtr = m.bus.mem.brkPtr
  initialBrk : m'.bus.mem.initialBrk = m.bus.mem.initialBrk

/-- The word runs to the end, as the reference semantics of `inst` says. -/
def Conforms (env : Env) (raw : U32) (m : Machine) (inst : Isa.Inst) : Prop :=
  ∃ m', (executeInst32 env raw).run m = .ok () m' ∧
    m'.reference = Isa.exec m.reference inst ∧ Keeps m m'

section Tables

variable (a b : U32)

theorem branchTaken_eq {funct3 : Nat} {cond : Isa.Cond} (known : Isa.cond? funct3 = some cond) :
    branchTaken (BitVec.ofNat 8 funct3) a b = some (cond.onWords a b) := by
  unfold Isa.cond? at known
  split at known <;> cases known <;> rfl

theorem opValue_eq {funct7 funct3 : Nat} {op : Isa.Alu} (known : Isa.op? funct7 funct3 = some op) :
    opValue (BitVec.ofNat 8 funct7) (BitVec.ofNat 8 funct3) a b = some (op.onWords a b) := by
  unfold Isa.op? at known
  split at known <;> cases known <;> rfl

theorem opImmValue_eq {funct3 : Nat} {op : Isa.Alu} (known : Isa.immOp? funct3 = some op) (funct7 : U8)
    (shamt : Nat) : opImmValue (BitVec.ofNat 8 funct3) funct7 a b shamt =
      some (op.onWords a b) := by
  unfold Isa.immOp? at known
  split at known <;> cases known <;> rfl

theorem opImmValue_shift {funct7 funct3 : Nat} {op : Isa.Alu}
    (known : Isa.shift? funct7 funct3 = some op)
    (shamt : Fin 32) :
    opImmValue (BitVec.ofNat 8 funct3) (BitVec.ofNat 8 funct7) a b (shamt.val &&& 0x1F) =
      some (op.onWords a (BitVec.ofNat 32 shamt)) := by
  have amount : shamt.val &&& 0x1F = (BitVec.ofNat 32 shamt &&& 31).toNat := by
    rw [Isa.low_five, BitVec.toNat_ofNat, Nat.and_two_pow_sub_one_eq_mod shamt.val 5]
    omega
  unfold Isa.shift? at known
  rw [amount]
  split at known <;> cases known <;> rfl

end Tables

section States

variable {env : Env} {raw : U32} {m : Machine}

theorem readReg_writeReg (cpu : Cpu) (rd r : Fin 32) (val : U32) :
    (cpu.writeReg rd val).readReg r =
      if rd = 0 then cpu.readReg r else Function.update cpu.readReg rd val r := by
  by_cases dropped : rd = 0
  · simp [Cpu.writeReg, dropped]
  · rw [if_neg dropped, Cpu.writeReg, if_pos dropped]
    by_cases zero : r = 0
    · subst zero
      rw [Function.update_of_ne (Ne.symm dropped), Cpu.readReg, Cpu.readReg, if_pos rfl, if_pos rfl]
    · by_cases here : r = rd
      · subst here
        simp [Cpu.readReg, zero]
      · rw [Function.update_of_ne here, Cpu.readReg, Cpu.readReg, if_neg zero, if_neg zero]
        exact Function.update_of_ne here val cpu.regs

/-- A register write and a jump, as the reference semantics has them. -/
theorem reference_set_goto (m : Machine) (rd : Fin 32) (value target : Int) :
    (Machine.mk
      { m.cpu.writeReg rd (BitVec.ofInt 32 value) with pc := BitVec.ofInt 32 target } m.bus).reference =
      (m.reference.set rd value).goto target := by
  have registers (r : Fin 32) : ((m.cpu.writeReg rd (BitVec.ofInt 32 value)).readReg r).toNat =
      (m.reference.set rd value).x r := by
    have index : rd.val = 0 ↔ rd = 0 := Fin.val_eq_zero_iff
    rw [readReg_writeReg, Isa.State.set]
    by_cases dropped : rd = 0
    · rw [if_pos dropped, if_pos (index.mpr dropped)]
      rfl
    · simp only [if_neg dropped, if_neg (mt index.mp dropped), Function.update_apply, Isa.wrap_eq]
      split <;> rfl
  ext
  · exact registers _
  · exact (Isa.wrap_eq target).symm
  · rfl

theorem keeps_write (m : Machine) (rd : Fin 32) (val target : U32) :
    Keeps m ⟨{ m.cpu.writeReg rd val with pc := target }, m.bus⟩ := by
  by_cases dropped : rd = 0
  · rw [Cpu.writeReg, if_neg (not_not.mpr dropped)]
    exact ⟨rfl, rfl, rfl, rfl, rfl⟩
  · rw [Cpu.writeReg, if_pos dropped]
    exact ⟨rfl, Function.update_of_ne (Ne.symm dropped) _ _, rfl, rfl, rfl⟩

/-- Instructions that write a register and choose the next `pc`. -/
theorem conforms_of_write {inst : Isa.Inst} {rd : Fin 32} {value target : Int}
    (run : (executeInst32.dispatch env (DecodedInst32.decode raw) m.cpu.pc (m.cpu.pc + 4)).run m =
      .ok (BitVec.ofInt 32 target) { m with cpu := m.cpu.writeReg rd (BitVec.ofInt 32 value) })
    (meaning : Isa.exec m.reference inst = (m.reference.set rd value).goto target) :
    Conforms env raw m inst := by
  refine ⟨_, ?_, ?_, keeps_write m rd (BitVec.ofInt 32 value) (BitVec.ofInt 32 target)⟩
  · rw [executeInst32_run, run]
    rfl
  · rw [meaning]
    exact reference_set_goto m rd value target

/-- Instructions that only choose the next `pc`. -/
theorem conforms_of_goto {inst : Isa.Inst} {target : Int}
    (run : (executeInst32.dispatch env (DecodedInst32.decode raw) m.cpu.pc (m.cpu.pc + 4)).run m =
      .ok (BitVec.ofInt 32 target) m)
    (meaning : Isa.exec m.reference inst = m.reference.goto target) : Conforms env raw m inst :=
  @conforms_of_write env raw m inst 0 0 target run meaning

end States

section Data

variable (env : Env) (m : Machine)

def Width.ofSize : Isa.Size → Width
  | .byte => byte
  | .half => half
  | .word => word

theorem Width.bytes_ofSize (size : Isa.Size) : (ofSize size).bytes = size.bytes := by
  cases size <;> rfl

/-- The five loads differ in width and extension only. -/
theorem loadValue_eq {funct3 : Nat} {kind : Isa.Size × Bool} (known : Isa.load? funct3 = some kind)
    (raw addr : U32) :
    loadValue env raw (BitVec.ofNat 8 funct3) addr = do
      let val ← onBus (Memory.readAt env.host (.ofSize kind.1) addr)
      return if kind.2 then val.setWidth 32 else val.signExtend 32 := by
  unfold Isa.load? at known
  split at known <;> cases known
  case h_3 =>
    have whole (val : U32) : val.signExtend 32 = val := BitVec.signExtend_eq val
    exact (bind_pure _).symm.trans (congrArg _ (funext fun val => congrArg pure (whole val).symm))
  all_goals rfl

theorem storeValue_eq {funct3 : Nat} {size : Isa.Size} (known : Isa.store? funct3 = some size)
    (raw addr val : U32) :
    storeValue raw (BitVec.ofNat 8 funct3) addr val =
      onBus (Memory.writeAt (.ofSize size) addr (val.setWidth _)) := by
  unfold Isa.store? at known
  split at known <;> cases known
  case h_3 =>
    have whole : val.setWidth 32 = val := BitVec.setWidth_eq val
    exact congrArg (fun val => onBus (Memory.writeU32 addr val)) whole.symm
  all_goals rfl

/-- A load below the window: the number that memory spells, extended. -/
theorem loadValue_run {funct3 : Nat} {kind : Isa.Size × Bool}
    (known : Isa.load? funct3 = some kind) (raw : U32)
    {addr : U32} (below : addr.toNat + kind.1.bytes ≤ 0xFFFF0000) :
    (loadValue env raw (BitVec.ofNat 8 funct3) addr).run m =
      .ok (BitVec.ofInt 32
        (if kind.2 then (Isa.bytesAt m.reference.mem addr.toNat kind.1.bytes : Int)
          else Isa.signed (8 * kind.1.bytes) (Isa.bytesAt m.reference.mem addr.toNat kind.1.bytes)))
            m := by
  rw [← Width.bytes_ofSize] at below ⊢
  obtain ⟨val, read, value⟩ := readAt_below (ε := CpuError) env.host m.bus (.ofSize kind.1) below
  have spelled : Isa.bytesAt m.reference.mem addr.toNat (Width.ofSize kind.1).bytes = val.toNat := by
    rw [Machine.reference, Isa.bytesAt_ofStore, BitVec.ofNat_toNat, BitVec.setWidth_eq, value]
  have wide : 0 < (Width.ofSize kind.1).bits := by
    cases kind.1 <;> decide
  have extended : BitVec.ofInt 32
      (if kind.2 then (val.toNat : Int) else Isa.signed (Width.ofSize kind.1).bits val.toNat) =
      if kind.2 then val.setWidth 32 else val.signExtend 32 := by
    rw [apply_ite (BitVec.ofInt 32), Isa.ofInt_signed val wide, BitVec.ofInt_natCast,
      BitVec.ofNat_toNat]
  rw [loadValue_eq env known, run_bind, run_onBus read, Outcome.andThen_ok, run_pure,
    spelled, extended]

/-- The narrowing cast of a store drops no byte that is written. -/
theorem leByte_setWidth {v n i : Nat} (val : BitVec v) (inside : i < n) :
    leByte (val.setWidth (8 * n)) i = leByte val i := by
  apply BitVec.eq_of_getLsbD_eq
  intro j bound
  have kept : 8 * i + j < 8 * n := by omega
  simp only [leByte, BitVec.getLsbD_extractLsb', BitVec.getLsbD_setWidth, kept, decide_true,
    Bool.true_and]

/-- A store below the window. -/
theorem storeValue_run {funct3 : Nat} {size : Isa.Size} (known : Isa.store? funct3 = some size)
    (raw val : U32)
    {addr : U32} (below : addr.toNat + size.bytes ≤ 0xFFFF0000) :
    ∃ mem : Memory, (storeValue raw (BitVec.ofNat 8 funct3) addr val).run m =
        .ok () { m with bus := { m.bus with mem := mem } } ∧
      Isa.ofStore mem.flat = Isa.withBytes m.reference.mem addr.toNat size.bytes val.toNat ∧
      mem.brkPtr = m.bus.mem.brkPtr ∧ mem.initialBrk = m.bus.mem.initialBrk := by
  rw [← Width.bytes_ofSize] at below ⊢
  obtain ⟨mem, written, flat, brk⟩ :=
    writeAt_below (ε := CpuError) m.bus (.ofSize size) below (val.setWidth (Width.ofSize size).bits)
  refine ⟨mem, ?_, ?_, brk⟩
  · rw [storeValue_eq known]
    exact run_onBus written
  · funext a
    rw [Isa.ofStore, flat, Isa.withBytes, Isa.wrap_sub, overlay]
    generalize (BitVec.ofNat 32 a - addr).toNat = i
    by_cases inside : i < (Width.ofSize size).bytes
    · simp only [if_pos inside]
      rw [leByte_setWidth val inside, toNat_leByte, Nat.pow_mul]
    · simp only [if_neg inside]
      rfl

end Data

section Cases

variable {env : Env} {m : Machine} {raw : U32}

theorem opcode_known (code : Opcode) {major : Nat} (found : Isa.opcode raw.toNat = major)
    (same : BitVec.ofNat 8 major = code.bits) :
    Opcode.ofBits? (DecodedInst32.decode raw).opcode = some code := by
  rw [decode_opcode, found, same, Opcode.ofBits?_bits]

theorem ofInt_pc_add (imm : Int) :
    BitVec.ofInt 32 (m.reference.pc + imm) = m.cpu.pc + BitVec.ofInt 32 imm := by
  rw [BitVec.ofInt_add]
  exact congrArg (· + _) (Isa.ofInt_toNat m.cpu.pc)

theorem ofInt_reg_add (r : Fin 32) (imm : Int) :
    BitVec.ofInt 32 (m.reference.x r + imm) = m.cpu.readReg r + BitVec.ofInt 32 imm := by
  rw [BitVec.ofInt_add]
  exact congrArg (· + _) (Isa.ofInt_toNat (m.cpu.readReg r))

theorem ofInt_next : BitVec.ofInt 32 (m.reference.pc + 4) = m.cpu.pc + 4 := ofInt_pc_add 4

/-- The address of a load or store. -/
theorem wrap_reg_add (r : Fin 32) (imm : Int) :
    Isa.wrap (m.reference.x r + imm) = (m.cpu.readReg r + BitVec.ofInt 32 imm).toNat := by
  rw [Isa.wrap_eq, ofInt_reg_add]

/-- `!1` clears bit 0. -/
theorem and_not_one (x : U32) : x &&& ~~~(1 : U32) = BitVec.ofInt 32 (x.toNat / 2 * 2 : Nat) := by
  have cleared : x &&& ~~~(1 : U32) = (x >>> 1) <<< 1 := by
    rw [BitVec.shiftLeft_ushiftRight]
    rfl
  apply BitVec.eq_of_toNat_eq
  rw [cleared, BitVec.ofInt_natCast, BitVec.toNat_ofNat, BitVec.toNat_shiftLeft,
    BitVec.toNat_ushiftRight,
    Nat.shiftLeft_eq, Nat.shiftRight_eq_div_pow]

theorem conforms_lui (major : Isa.opcode raw.toNat = 0x37) :
    Conforms env raw m (.lui (Isa.rd raw.toNat) (Isa.immU raw.toNat)) := by
  have known := opcode_known .lui major rfl
  refine conforms_of_write ?_ rfl
  rw [ofInt_next, ← decode_rd, ← decode_uImm]
  simp only [executeInst32.dispatch, execRv32i, known, run_bind, run_getCpu,
    run_modifyCpu, run_pure,
    Outcome.andThen_ok]

theorem conforms_auipc (major : Isa.opcode raw.toNat = 0x17) :
    Conforms env raw m (.auipc (Isa.rd raw.toNat) (Isa.immU raw.toNat)) := by
  have known := opcode_known .auipc major rfl
  refine conforms_of_write ?_ rfl
  rw [ofInt_next, ofInt_pc_add, ← decode_rd, ← decode_uImm]
  simp only [executeInst32.dispatch, execRv32i, known, run_bind, run_getCpu,
    run_modifyCpu, run_pure,
    Outcome.andThen_ok]

theorem conforms_jal (major : Isa.opcode raw.toNat = 0x6F) :
    Conforms env raw m (.jal (Isa.rd raw.toNat) (Isa.immJ raw.toNat)) := by
  have known := opcode_known .jal major rfl
  refine conforms_of_write ?_ rfl
  rw [ofInt_next, ofInt_pc_add, ← decode_rd, ← decode_jImm]
  simp only [executeInst32.dispatch, execRv32i, known, run_bind, run_getCpu,
    run_modifyCpu, run_pure,
    Outcome.andThen_ok]

/-- The target is formed before the link register is written. -/
theorem conforms_jalr (major : Isa.opcode raw.toNat = 0x67) :
    Conforms env raw m (.jalr (Isa.rd raw.toNat) (Isa.rs1 raw.toNat) (Isa.immI raw.toNat)) := by
  have known := opcode_known .jalr major rfl
  refine conforms_of_write ?_ rfl
  rw [ofInt_next, wrap_reg_add, ← and_not_one, ← decode_rd, ← decode_rs1, ← decode_iImm]
  simp only [executeInst32.dispatch, execRv32i, known, run_bind, run_getCpu,
    run_modifyCpu, run_pure,
    Outcome.andThen_ok]

theorem conforms_branch (major : Isa.opcode raw.toNat = 0x63) {cond : Isa.Cond}
    (selected : Isa.cond? (Isa.funct3 raw.toNat) = some cond) :
    Conforms env raw m (.branch cond (Isa.rs1 raw.toNat) (Isa.rs2 raw.toNat)
      (Isa.immB raw.toNat)) := by
  have known := opcode_known .branch major rfl
  have taken := branchTaken_eq (m.cpu.readReg (Isa.rs1 raw.toNat))
    (m.cpu.readReg (Isa.rs2 raw.toNat)) selected
  rw [← Isa.Cond.holds_toNat, ← decode_funct3, ← decode_rs1, ← decode_rs2] at taken
  refine conforms_of_goto ?_ rfl
  rw [apply_ite (BitVec.ofInt 32), ofInt_next, ofInt_pc_add, ← decode_rs1, ← decode_rs2, ← decode_bImm]
  simp only [executeInst32.dispatch, execRv32i, known, run_bind, run_getCpu, run_pure,
    Outcome.andThen_ok, taken,
    orIllegal]
  rfl

theorem conforms_load (major : Isa.opcode raw.toNat = 0x03) {kind : Isa.Size × Bool}
    (selected : Isa.load? (Isa.funct3 raw.toNat) = some kind)
    (below : Isa.wrap (m.reference.x (Isa.rs1 raw.toNat) + Isa.immI raw.toNat) + kind.1.bytes ≤
      0xFFFF0000) :
    Conforms env raw m (.load kind.1 kind.2 (Isa.rd raw.toNat) (Isa.rs1 raw.toNat)
      (Isa.immI raw.toNat)) := by
  have known := opcode_known .load major rfl
  rw [wrap_reg_add, ← decode_rs1, ← decode_iImm] at below
  have loaded := loadValue_run env m selected raw below
  rw [← decode_funct3] at loaded
  refine conforms_of_write ?_ rfl
  rw [ofInt_next, wrap_reg_add, ← decode_rd, ← decode_rs1, ← decode_iImm]
  simp only [executeInst32.dispatch, execRv32i, known, run_bind, run_getCpu,
    run_modifyCpu, run_pure,
    Outcome.andThen_ok]
  rw [show (DecodedInst32.decode raw).raw = raw from rfl, loaded]
  rfl

theorem conforms_store (major : Isa.opcode raw.toNat = 0x23) {size : Isa.Size}
    (selected : Isa.store? (Isa.funct3 raw.toNat) = some size)
    (below : Isa.wrap (m.reference.x (Isa.rs1 raw.toNat) + Isa.immS raw.toNat) + size.bytes ≤
      0xFFFF0000) :
    Conforms env raw m (.store size (Isa.rs1 raw.toNat) (Isa.rs2 raw.toNat)
      (Isa.immS raw.toNat)) := by
  have known := opcode_known .store major rfl
  rw [wrap_reg_add, ← decode_rs1, ← decode_sImm] at below
  obtain ⟨mem, stored, flat, brk, initial⟩ :=
    storeValue_run m selected raw (m.cpu.readReg (DecodedInst32.decode raw).rs2) below
  rw [← decode_funct3] at stored
  refine ⟨⟨{ m.cpu with pc := m.cpu.pc + 4 }, { m.bus with mem := mem }⟩, ?_, ?_,
    ⟨rfl, rfl, rfl, brk, initial⟩⟩
  · rw [executeInst32_run]
    simp only [executeInst32.dispatch, execRv32i, known, run_bind, run_getCpu, run_pure,
      Outcome.andThen_ok]
    rw [show (DecodedInst32.decode raw).raw = raw from rfl, stored]
    rfl
  · rw [Isa.exec, wrap_reg_add, ← decode_rs1, ← decode_rs2, ← decode_sImm, Isa.State.goto, Isa.wrap_eq]
    ext
    · rfl
    · exact congrArg BitVec.toNat ofInt_next.symm
    · exact congrFun flat _

/-- The arithmetic instructions, once their result is known. -/
theorem dispatch_imm_run {val : U32} (major : Isa.opcode raw.toNat = 0x13)
    (result : opImmValue (DecodedInst32.decode raw).funct3 (DecodedInst32.decode raw).funct7
      (m.cpu.readReg (DecodedInst32.decode raw).rs1) (DecodedInst32.decode raw).iImm
      ((DecodedInst32.decode raw).rs2.val &&& 0x1F) = some val) :
    (executeInst32.dispatch env (DecodedInst32.decode raw) m.cpu.pc (m.cpu.pc + 4)).run m =
      .ok (m.cpu.pc + 4) { m with cpu := m.cpu.writeReg (Isa.rd raw.toNat) val } := by
  have known := opcode_known .imm major rfl
  rw [← decode_rd]
  simp only [executeInst32.dispatch, execRv32i, known, run_bind, run_getCpu,
    run_modifyCpu, run_pure,
    Outcome.andThen_ok, opImmResult_shamt, result, orIllegal]

theorem conforms_opImm (major : Isa.opcode raw.toNat = 0x13) {op : Isa.Alu}
    (selected : Isa.immOp? (Isa.funct3 raw.toNat) = some op) :
    Conforms env raw m (.opImm op (Isa.rd raw.toNat) (Isa.rs1 raw.toNat) (Isa.immI raw.toNat)) := by
  refine conforms_of_write ?_ rfl
  rw [ofInt_next, Isa.wrap_eq, Machine.reference, Isa.Alu.ofInt_eval]
  refine dispatch_imm_run major ?_
  rw [decode_funct3, decode_rs1, decode_iImm]
  exact opImmValue_eq _ _ selected _ _

theorem conforms_shift (major : Isa.opcode raw.toNat = 0x13) {op : Isa.Alu}
    (selected : Isa.shift? (Isa.funct7 raw.toNat) (Isa.funct3 raw.toNat) = some op) :
    Conforms env raw m (.opImm op (Isa.rd raw.toNat) (Isa.rs1 raw.toNat)
      (Isa.shamt raw.toNat)) := by
  refine conforms_of_write ?_ rfl
  rw [ofInt_next, Isa.wrap_eq, Machine.reference, Isa.Alu.ofInt_eval]
  refine dispatch_imm_run major ?_
  rw [decode_funct3, decode_funct7, decode_rs1, decode_rs2, Isa.shamt, BitVec.ofInt_natCast]
  exact opImmValue_shift _ _ selected _

theorem conforms_op (major : Isa.opcode raw.toNat = 0x33) {op : Isa.Alu}
    (selected : Isa.op? (Isa.funct7 raw.toNat) (Isa.funct3 raw.toNat) = some op) :
    Conforms env raw m (.op op (Isa.rd raw.toNat) (Isa.rs1 raw.toNat) (Isa.rs2 raw.toNat)) := by
  have known := opcode_known .op major rfl
  have result := opValue_eq (m.cpu.readReg (Isa.rs1 raw.toNat))
    (m.cpu.readReg (Isa.rs2 raw.toNat)) selected
  rw [← decode_funct3, ← decode_funct7, ← decode_rs1, ← decode_rs2] at result
  have base : (DecodedInst32.decode raw).funct7 ≠ 0x01 := by
    intro muldiv
    rw [muldiv] at result
    cases result
  refine conforms_of_write ?_ rfl
  rw [ofInt_next, Machine.reference, Isa.Alu.ofInt_eval, ← decode_rd, ← decode_rs1, ← decode_rs2]
  simp only [executeInst32.dispatch, execRv32i, known, if_neg base, run_bind, run_getCpu,
    run_modifyCpu, run_pure,
    Outcome.andThen_ok, opResult_eq, result, orIllegal]

theorem conforms_fence (major : Isa.opcode raw.toNat = 0x0F) : Conforms env raw m .fence := by
  have known := opcode_known .miscMem major rfl
  refine conforms_of_goto ?_ rfl
  rw [ofInt_next]
  simp only [executeInst32.dispatch, execRv32i, known, run_bind, run_getCpu, run_pure,
    Outcome.andThen_ok]

end Cases

/-- Every legal base instruction whose data access stays below the window does
what the reference semantics says, and nothing else. -/
theorem rv32i_conformance (env : Env) (m : Machine) (raw : U32) (inst : Isa.Inst)
    (legal : Isa.decode raw.toNat = some inst)
    (below : ∀ addr n, inst.access m.reference = some (addr, n) → addr + n ≤ 0xFFFF0000) :
    ∃ m', (executeInst32 env raw).run m = .ok () m' ∧ m'.reference = Isa.exec m.reference inst ∧
      Keeps m m' := by
  change Conforms env raw m inst
  unfold Isa.decode at legal
  split at legal
  case h_1 major => cases legal; exact conforms_lui major
  case h_2 major => cases legal; exact conforms_auipc major
  case h_3 major => cases legal; exact conforms_jal major
  case h_4 major =>
    split at legal
    · cases legal
      exact conforms_jalr major
    · cases legal
  case h_5 major =>
    obtain ⟨cond, selected, rfl⟩ := Option.map_eq_some_iff.mp legal
    exact conforms_branch major selected
  case h_6 major =>
    obtain ⟨kind, selected, rfl⟩ := Option.map_eq_some_iff.mp legal
    exact conforms_load major selected (below _ _ rfl)
  case h_7 major =>
    obtain ⟨size, selected, rfl⟩ := Option.map_eq_some_iff.mp legal
    exact conforms_store major selected (below _ _ rfl)
  case h_8 major =>
    rcases Option.or_eq_some_iff.mp legal with immediate | ⟨-, shift⟩
    · obtain ⟨op, selected, rfl⟩ := Option.map_eq_some_iff.mp immediate
      exact conforms_opImm major selected
    · obtain ⟨op, selected, rfl⟩ := Option.map_eq_some_iff.mp shift
      exact conforms_shift major selected
  case h_9 major =>
    obtain ⟨op, selected, rfl⟩ := Option.map_eq_some_iff.mp legal
    exact conforms_op major selected
  case h_10 major =>
    split at legal
    · cases legal
      exact conforms_fence major
    · cases legal
  case h_11 => cases legal

/-- `sw sp, 4(x0)` on the initial machine. -/
theorem rv32i_conformance_store :
    ∃ m', (executeInst32 default 0x00202223).run Machine.new = .ok () m' ∧
      Isa.bytesAt m'.reference.mem 4 4 = 0x7FFFFFC ∧ m'.reference.pc = 4 := by
  have below (addr n : Nat)
    (access : (Isa.Inst.store .word 0 2 4).access Machine.new.reference = some (addr, n)) :
      addr + n ≤ 0xFFFF0000 := by
    cases access
    decide
  obtain ⟨m', run, meaning, -⟩ :=
    rv32i_conformance default Machine.new 0x00202223 (.store .word 0 2 4) (by decide) below
  refine ⟨m', run, ?_, ?_⟩
  · rw [meaning]
    decide
  · rw [meaning]
    decide

end RiscvRs
