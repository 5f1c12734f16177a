import RiscvRs.Exec.Decoding
import RiscvRs.Machine.Fields
import RiscvRs.Memory.Devices

/-! What an execution leaves to be compared, and how the floating-point accesses of
different widths show in it. -/

namespace RiscvRs

open Effects Prog

/-- The instruction a word is executed as, by the width rule of the fetch. -/
def Fetched.ofWord (opcode : U32) : Fetched :=
  if opcode &&& 0x3 ≠ 0x3 then .half ((opcode &&& 0xFFFF).setWidth 16) else .word opcode

/-- What is compared of two executions: the trap, or the registers, the
floating-point bits, `pc`, the control registers and memory. -/
inductive Seen where
  | done (regs : Fin 32 → U32) (fregs : Fin 32 → U64) (pc fcsr : U32) (csrs : CsrFile) (mem : Memory)
  | trap (error : CpuError)
  | crash

def Seen.of : Outcome Machine CpuError Unit → Seen
  | .ok _ m => .done m.cpu.regs m.cpu.fregs m.cpu.pc m.cpu.fcsr m.cpu.csrs m.bus.mem
  | .err error _ => .trap error
  | .panic | .exhausted => .crash

def Fetched.seen (env : Env) (inst : Fetched) (m : Machine) : Seen := .of ((inst.execute env).run m)

/-- What is seen of an operation. -/
def Op.seen (env : Env) (op : Op) (m : Machine) : Seen :=
  .of (((op.exec env).run m).andThen fun next m' => .ok () (m'.jump next))

theorem Fetched.seen_eq (env : Env) (inst : Fetched) (m : Machine) :
    inst.seen env m = (inst.op env m.cpu).seen env m :=
  congrArg Seen.of (inst.execute_run env m)

section Operations

variable (env : Env) (m : Machine)

theorem run_readWord (addr : U32) :
    ∃ (val : U32) (bus : Bus),
      (onBus (Memory.readU32 env.host addr) : Exec U32).run m = .ok val { m with bus := bus } := by
  obtain ⟨val, events, run, -⟩ := readAt_events (ε := CpuError) env.host m.bus .word addr
  exact ⟨val, _, run_onBus run⟩

theorem run_writeWord (addr val : U32) :
    ∃ bus : Bus, (onBus (Memory.writeU32 addr val) : Exec Unit).run m = .ok ()
      { m with bus := bus } ∧
      (∀ x : U32, 4 ≤ (x - addr).toNat → bus.mem.flat x = m.bus.mem.flat x) ∧
      (addr.toNat < 0xFFFF0000 → bus.mem.flat addr = leByte val 0) := by
  obtain ⟨bus, run, written⟩ := flat_writeAt (ε := CpuError) m.bus .word addr val
  exact ⟨bus, run_onBus run, written⟩

theorem seen_loadSingle (rd : Fin 32) (addr next : U32) :
    ∃ val mem, (Op.loadSingle rd addr next).seen env m =
      .done m.cpu.regs (Function.update m.cpu.fregs rd (Cpu.boxed val)) next m.cpu.fcsr
        m.cpu.csrs mem := by
  obtain ⟨val, bus, read⟩ := run_readWord env m addr
  refine ⟨val, bus.mem, ?_⟩
  simp only [Op.seen, Op.exec, run_bind, read, Outcome.andThen_ok, run_modifyCpu, run_pure]
  rfl

theorem secondWord_cases (addr : U32) :
    (env.build.secondWord true addr : Exec U32) = pure (addr + 4) ∨
      (env.build.secondWord true addr : Exec U32) = panic := by
  rw [Build.secondWord, if_pos rfl, Build.addU32]
  split
  · exact .inr rfl
  · exact .inl rfl

theorem seen_loadDouble (rd : Fin 32) (addr next : U32) :
    (Op.loadDouble true rd addr next).seen env m = .crash ∨
      ∃ bits mem, (Op.loadDouble true rd addr next).seen env m =
        .done m.cpu.regs (Function.update m.cpu.fregs rd (Cpu.doubleBits bits)) next m.cpu.fcsr
          m.cpu.csrs mem := by
  obtain ⟨low, bus, read⟩ := run_readWord env m addr
  rcases secondWord_cases env addr with second | second
  · obtain ⟨high, bus', read'⟩ := run_readWord env { m with bus := bus } (addr + 4)
    refine .inr ⟨(high.setWidth 64 <<< 32) ||| low.setWidth 64, bus'.mem, ?_⟩
    simp only [Op.seen, Op.exec, run_bind, read, second, read', Outcome.andThen_ok,
      run_modifyCpu, run_pure]
    rfl
  · left
    simp only [Op.seen, Op.exec, run_bind, read, second, Outcome.andThen_ok, run_panic,
      Outcome.andThen_panic]
    rfl

theorem seen_storeWord (addr val next : U32) :
    ∃ mem, (Op.store .word addr val next).seen env m =
        .done m.cpu.regs m.cpu.fregs next m.cpu.fcsr m.cpu.csrs mem ∧
      mem.flat (addr + 4) = m.bus.mem.flat (addr + 4) := by
  have far : 4 ≤ (addr + 4 - addr).toNat := by
    rw [BitVec.add_comm, BitVec.add_sub_cancel]
    decide
  obtain ⟨bus, written, outside, -⟩ := run_writeWord m addr val
  refine ⟨bus.mem, ?_, outside _ far⟩
  rw [Op.seen, exec_storeWord]
  simp only [run_bind, written, Outcome.andThen_ok, run_pure]
  rfl

theorem seen_storeDouble (bits : U64) (addr next : U32) :
    (Op.storeDouble true bits addr next).seen env m = .crash ∨
      ∃ mem, (Op.storeDouble true bits addr next).seen env m =
          .done m.cpu.regs m.cpu.fregs next m.cpu.fcsr m.cpu.csrs mem ∧
        ((addr + 4).toNat < 0xFFFF0000 →
          mem.flat (addr + 4) = leByte ((bits >>> 32).setWidth 32 : U32) 0) := by
  obtain ⟨bus, low, -⟩ := run_writeWord m addr (bits.setWidth 32)
  rcases secondWord_cases env addr with second | second
  · obtain ⟨bus', high, -, first⟩ :=
      run_writeWord { m with bus := bus } (addr + 4) ((bits >>> 32).setWidth 32)
    refine .inr ⟨bus'.mem, ?_, first⟩
    simp only [Op.seen, Op.exec, run_bind, low, second, high, Outcome.andThen_ok, run_pure]
    rfl
  · left
    simp only [Op.seen, Op.exec, run_bind, low, second, Outcome.andThen_ok, run_panic,
      Outcome.andThen_panic]
    rfl

theorem run_writeWord_window (addr val : U32) (window : 0xFFFF0000 ≤ addr.toNat) :
    ∃ event, (onBus (Memory.writeU32 addr val) : Exec Unit).run m = .ok ()
      { m with bus := m.bus.record event } :=
  ⟨_, run_onBus (writeAt_window m.bus .word window val)⟩

/-- Into the window, only the devices see what is stored. -/
theorem seen_storeWord_window (addr val next : U32) (window : 0xFFFF0000 ≤ addr.toNat) :
    (Op.store .word addr val next).seen env m =
      .done m.cpu.regs m.cpu.fregs next m.cpu.fcsr m.cpu.csrs m.bus.mem := by
  obtain ⟨event, written⟩ := run_writeWord_window m addr val window
  rw [Op.seen, exec_storeWord]
  simp only [run_bind, written, Outcome.andThen_ok, run_pure]
  rfl

theorem seen_storeDouble_window (bits : U64) (addr next : U32) (room : addr.toNat + 4 < 2 ^ 32)
    (window : 0xFFFF0000 ≤ addr.toNat) :
    (Op.storeDouble true bits addr next).seen env m =
      .done m.cpu.regs m.cpu.fregs next m.cpu.fcsr m.cpu.csrs m.bus.mem := by
  have past : 0xFFFF0000 ≤ (addr + 4).toNat := by
    have sum : (addr + 4).toNat = addr.toNat + 4 := toNat_add_of_lt addr 4 room
    omega
  have second : (env.build.secondWord true addr : Exec U32) = pure (addr + 4) := by
    rw [Build.secondWord, if_pos rfl, Build.addU32, if_neg]
    rintro ⟨-, wraps⟩
    exact absurd room (Nat.not_lt.mpr wraps)
  obtain ⟨event, low⟩ := run_writeWord_window m addr (bits.setWidth 32) window
  obtain ⟨event', high⟩ := run_writeWord_window { m with bus := m.bus.record event } (addr + 4)
    ((bits >>> 32).setWidth 32) past
  simp only [Op.seen, Op.exec, run_bind, low, second, high, Outcome.andThen_ok, run_pure]
  rfl

theorem toNat_boxed (val : U32) : (Cpu.boxed val).toNat = 0xFFFFFFFF * 2 ^ 32 + val.toNat := by
  have joined : Cpu.boxed val = (0xFFFFFFFF#32 ++ val : U64) := rfl
  rw [joined, Bytes.toNat_append_eq]
  rfl

/-- A boxed single is a NaN as a double, and loading a double leaves only the canonical one. -/
theorem doubleBits_ne_boxed (bits : U64) (val : U32) : Cpu.doubleBits bits ≠ Cpu.boxed val := by
  have value := toNat_boxed val
  have bound := val.isLt
  intro same
  unfold Cpu.doubleBits at same
  split at same
  · have numbers := congrArg BitVec.toNat same
    rw [value] at numbers
    simp only [BitVec.reduceToNat] at numbers
    omega
  · rename_i proper
    apply proper
    rw [same, value, Ieee.Format.isNan, Ieee.Format.exponent, Ieee.Format.fraction,
      Bool.and_eq_true, beq_iff_eq,
      bne_iff_ne]
    simp only [Ieee.double]
    omega

end Operations

section Words

/-- The major opcode of a word. -/
def Major (code : Opcode) (word : U32) : Prop :=
  Opcode.ofBits? (DecodedInst32.decode word).opcode = some code

theorem Opcode.bits_of_ofBits? {byte : U8} {code : Opcode}
    (known : Opcode.ofBits? byte = some code) :
    byte = code.bits := by
  have found := List.find?_some known
  exact (eq_of_beq found).symm

theorem Major.opcode_eq {code : Opcode} {word : U32} (major : Major code word) :
    word.toNat % 128 = code.bits.toNat := by
  have byte := congrArg BitVec.toNat (Opcode.bits_of_ofBits? major)
  rw [decode_opcode, BitVec.toNat_ofNat] at byte
  have small : Isa.opcode word.toNat = word.toNat % 128 := by
    rw [Isa.opcode, Isa.bits]
    omega
  omega

theorem Major.ofWord {code : Opcode} {word : U32} (major : Major code word) :
    Fetched.ofWord word = .word word := by
  have low : code.bits.toNat % 4 = 3 := by cases code <;> rfl
  have opcode := major.opcode_eq
  have full : word &&& 0x3 = 0x3 := by
    apply BitVec.eq_of_toNat_eq
    have masked : (word &&& 0x3).toNat = word.toNat % 4 :=
      (BitVec.toNat_and word 0x3).trans (Nat.and_two_pow_sub_one_eq_mod word.toNat 2)
    rw [masked]
    change word.toNat % 4 = 3
    omega
  exact if_neg (not_not.mpr full)

/-- Twelve bits, sign-extended, are still told apart. -/
theorem signed_inj {k k' : Nat} (small : k < 4096) (small' : k' < 4096)
    (same : BitVec.ofInt 32 (Isa.signed 12 k) = BitVec.ofInt 32 (Isa.signed 12 k')) : k = k' := by
  have values := congrArg BitVec.toNat same
  rw [BitVec.toNat_ofInt, BitVec.toNat_ofInt, Isa.signed, Isa.signed] at values
  split at values <;> split at values <;> omega

section Fields

variable {word word' : U32}

theorem reg_bits (lo : Nat) (same : regField word lo = regField word' lo) :
    word.toNat / 2 ^ lo % 32 = word'.toNat / 2 ^ lo % 32 := by
  have values := congrArg Fin.val same
  rw [regField_eq, regField_eq] at values
  simp only [Isa.reg, Isa.bits, Nat.add_sub_cancel_left] at values
  exact values

theorem funct3_bits (same : (DecodedInst32.decode word).funct3 =
    (DecodedInst32.decode word').funct3) :
    word.toNat / 2 ^ 12 % 8 = word'.toNat / 2 ^ 12 % 8 := by
  have values := congrArg BitVec.toNat same
  rw [decode_funct3, decode_funct3, BitVec.toNat_ofNat, BitVec.toNat_ofNat, Isa.funct3,
    Isa.funct3, Isa.bits,
    Isa.bits] at values
  omega

/-- The fields of a load spell its word. -/
theorem load_word_eq {code : Opcode} (major : Major code word) (major' : Major code word')
    (rd : (DecodedInst32.decode word).rd = (DecodedInst32.decode word').rd)
    (funct3 : (DecodedInst32.decode word).funct3 = (DecodedInst32.decode word').funct3)
    (rs1 : (DecodedInst32.decode word).rs1 = (DecodedInst32.decode word').rs1)
    (imm : (DecodedInst32.decode word).iImm = (DecodedInst32.decode word').iImm) :
    word = word' := by
  have opcode := major.opcode_eq.trans major'.opcode_eq.symm
  have dest := reg_bits 7 rd
  have width := funct3_bits funct3
  have base := reg_bits 15 rs1
  rw [decode_iImm, decode_iImm, Isa.immI, Isa.immI] at imm
  have offset : word.toNat / 2 ^ 20 % 4096 = word'.toNat / 2 ^ 20 % 4096 :=
    signed_inj (Nat.mod_lt _ (by decide)) (Nat.mod_lt _ (by decide)) imm
  have bound := word.isLt
  have bound' := word'.isLt
  apply BitVec.eq_of_toNat_eq
  omega

/-- The fields of a store spell its word. -/
theorem store_word_eq {code : Opcode} (major : Major code word) (major' : Major code word')
    (rs2 : (DecodedInst32.decode word).rs2 = (DecodedInst32.decode word').rs2)
    (funct3 : (DecodedInst32.decode word).funct3 = (DecodedInst32.decode word').funct3)
    (rs1 : (DecodedInst32.decode word).rs1 = (DecodedInst32.decode word').rs1)
    (imm : (DecodedInst32.decode word).sImm = (DecodedInst32.decode word').sImm) :
    word = word' := by
  have opcode := major.opcode_eq.trans major'.opcode_eq.symm
  have source := reg_bits 20 rs2
  have width := funct3_bits funct3
  have base := reg_bits 15 rs1
  have small (n : Nat) : Isa.bits n 31 25 * 2 ^ 5 + Isa.bits n 11 7 < 4096 := by
    rw [Isa.bits, Isa.bits]
    omega
  rw [decode_sImm, decode_sImm, Isa.immS, Isa.immS] at imm
  have offset := signed_inj (small _) (small _) imm
  simp only [Isa.bits] at offset
  have bound := word.isLt
  have bound' := word'.isLt
  apply BitVec.eq_of_toNat_eq
  omega

/-- A store offset is small, or small below zero. -/
theorem sImm_range (word : U32) : (DecodedInst32.decode word).sImm.toNat < 2048 ∨
    2 ^ 32 - 2048 ≤ (DecodedInst32.decode word).sImm.toNat := by
  rw [decode_sImm, BitVec.toNat_ofInt, Isa.immS, Isa.bits, Isa.bits, Isa.signed]
  split <;> omega

end Fields

end Words

section Accesses

/-- A floating-point load or store of the full encodings. -/
def FpAccess (word : U32) : Prop := Major .loadFp word ∨ Major .storeFp word

/-- A store relative to `zero` whose words, one or two, all lie in the device window. -/
def DeviceStore (word : U32) : Prop :=
  let inst := DecodedInst32.decode word
  Major .storeFp word ∧ (inst.funct3 = 2 ∨ inst.funct3 = 3) ∧ inst.rs1 = 0 ∧
    mmioBase ≤ inst.sImm ∧ mmioBase ≤ inst.sImm + 4

variable (env : Env) (m : Machine) {word word' : U32}

theorem seen_load (major : Major .loadFp word) : (Fetched.word word).seen env m =
    ((DecodedInst32.decode word).loadFpOp m.cpu (m.cpu.pc + 4)).seen env m := by
  rw [Fetched.seen_eq, Fetched.op, DecodedInst32.op, show Opcode.ofBits? _ = _ from major]

theorem seen_store (major : Major .storeFp word) : (Fetched.word word).seen env m =
    ((DecodedInst32.decode word).storeFpOp m.cpu (m.cpu.pc + 4)).seen env m := by
  rw [Fetched.seen_eq, Fetched.op, DecodedInst32.op, show Opcode.ofBits? _ = _ from major]

theorem seen_reserved (access : FpAccess word) (single : (DecodedInst32.decode word).funct3 ≠ 2)
    (double : (DecodedInst32.decode word).funct3 ≠ 3) :
    (Fetched.word word).seen env m = .trap (.illegalInstruction m.cpu.pc word) := by
  rcases access with major | major
  · rw [seen_load env m major, DecodedInst32.loadFpOp, if_neg single, if_neg double]
    rfl
  · rw [seen_store env m major, DecodedInst32.storeFpOp, if_neg single, if_neg double]
    rfl

section Kinds

variable (inst : DecodedInst32) (decoded : DecodedInst32.decode word = inst)

include decoded

theorem seen_flw (major : Major .loadFp word) (single : inst.funct3 = 2) :
    ∃ val mem, (Fetched.word word).seen env m = .done m.cpu.regs
      (Function.update m.cpu.fregs inst.rd (Cpu.boxed val))
        (m.cpu.pc + 4) m.cpu.fcsr m.cpu.csrs mem := by
  rw [seen_load env m major, decoded, DecodedInst32.loadFpOp, if_pos single]
  exact seen_loadSingle env m _ _ _

theorem seen_fld (major : Major .loadFp word) (double : inst.funct3 = 3) :
    (Fetched.word word).seen env m = .crash ∨
      ∃ bits mem, (Fetched.word word).seen env m = .done m.cpu.regs
      (Function.update m.cpu.fregs inst.rd (Cpu.doubleBits bits))
        (m.cpu.pc + 4) m.cpu.fcsr m.cpu.csrs mem := by
  rw [seen_load env m major, decoded, DecodedInst32.loadFpOp, double,
    if_neg (by decide), if_pos rfl]
  exact seen_loadDouble env m _ _ _

theorem seen_fsw (major : Major .storeFp word) (single : inst.funct3 = 2) :
    ∃ mem, (Fetched.word word).seen env m =
        .done m.cpu.regs m.cpu.fregs (m.cpu.pc + 4) m.cpu.fcsr m.cpu.csrs mem ∧
      mem.flat (m.cpu.readReg inst.rs1 + inst.sImm + 4) =
        m.bus.mem.flat (m.cpu.readReg inst.rs1 + inst.sImm + 4) := by
  rw [seen_store env m major, decoded, DecodedInst32.storeFpOp, if_pos single]
  exact seen_storeWord env m _ _ _

theorem seen_fsd (major : Major .storeFp word) (double : inst.funct3 = 3) :
    (Fetched.word word).seen env m = .crash ∨ ∃ mem, (Fetched.word word).seen env m =
        .done m.cpu.regs m.cpu.fregs (m.cpu.pc + 4) m.cpu.fcsr m.cpu.csrs mem ∧
      ((m.cpu.readReg inst.rs1 + inst.sImm + 4).toNat < 0xFFFF0000 →
        mem.flat (m.cpu.readReg inst.rs1 + inst.sImm + 4) =
          leByte ((m.cpu.fregs inst.rs2 >>> 32).setWidth 32 : U32) 0) := by
  rw [seen_store env m major, decoded, DecodedInst32.storeFpOp, double,
    if_neg (by decide), if_pos rfl]
  exact seen_storeDouble env m _ _ _

theorem seen_legal (access : FpAccess word) (legal : inst.funct3 = 2 ∨ inst.funct3 = 3)
    (error : CpuError) :
    (Fetched.word word).seen env m ≠ .trap error := by
  intro trap
  rcases access with major | major
  · rcases legal with single | double
    · obtain ⟨val, mem, seen⟩ := seen_flw env m inst decoded major single
      cases seen.symm.trans trap
    · rcases seen_fld env m inst decoded major double with seen | ⟨bits, mem,
        seen⟩ <;> cases seen.symm.trans trap
  · rcases legal with single | double
    · obtain ⟨mem, seen, -⟩ := seen_fsw env m inst decoded major single
      cases seen.symm.trans trap
    · rcases seen_fsd env m inst decoded major double with seen | ⟨mem, seen,
        -⟩ <;> cases seen.symm.trans trap

/-- Two words in the device window leave no mark on the machine. -/
theorem seen_deviceStore (device : DeviceStore word) : (Fetched.word word).seen env m =
    .done m.cpu.regs m.cpu.fregs (m.cpu.pc + 4) m.cpu.fcsr m.cpu.csrs m.bus.mem := by
  obtain ⟨major, legal, zero, first, second⟩ := device
  rw [decoded] at legal zero first second
  have window := (mmioBase_le_iff inst.sImm).mp first
  have window' := (mmioBase_le_iff (inst.sImm + 4)).mp second
  have room : inst.sImm.toNat + 4 < 2 ^ 32 := by
    have sum : (inst.sImm + 4).toNat = (inst.sImm.toNat + 4) % 2 ^ 32 :=
      BitVec.toNat_add inst.sImm 4
    have bound := inst.sImm.isLt
    omega
  have base : m.cpu.readReg 0 + inst.sImm = inst.sImm := BitVec.zero_add inst.sImm
  rw [seen_store env m major, decoded, DecodedInst32.storeFpOp, zero, base]
  rcases legal with single | double
  · rw [if_pos single]
    exact seen_storeWord_window env m _ _ _ window
  · rw [double, if_neg (by decide), if_pos rfl]
    exact seen_storeDouble_window env m _ _ _ room window

end Kinds

/-- A boxed word is never what a double leaves. -/
theorem loads_differ (major : Major .loadFp word) (major' : Major .loadFp word')
    (rd : (DecodedInst32.decode word).rd = (DecodedInst32.decode word').rd)
    (single : (DecodedInst32.decode word).funct3 = 2)
    (double : (DecodedInst32.decode word').funct3 = 3) :
    (Fetched.word word).seen env m ≠ (Fetched.word word').seen env m := by
  intro same
  obtain ⟨val, mem, seen⟩ := seen_flw env m _ rfl major single
  rw [seen] at same
  rcases seen_fld env m _ rfl major' double with crash | ⟨bits, mem', seen'⟩
  · cases same.trans crash
  · have files := (Seen.done.inj (same.trans seen')).2.1
    have here := congrFun files (DecodedInst32.decode word).rd
    rw [← rd, Function.update_self, Function.update_self] at here
    exact doubleBits_ne_boxed bits val here.symm

/-- A machine with empty memory, one value in every register, and doubles with a bit in their upper
word. -/
def probe (address base : U32) : Machine where
  cpu := { Cpu.new with regs := fun _ => base, fregs := fun _ => 0x100000000, pc := address }
  bus := Machine.new.bus

theorem stores_differ (address base : U32) (major : Major .storeFp word)
    (major' : Major .storeFp word')
    (rs1 : (DecodedInst32.decode word).rs1 = (DecodedInst32.decode word').rs1)
    (imm : (DecodedInst32.decode word).sImm = (DecodedInst32.decode word').sImm)
    (single : (DecodedInst32.decode word).funct3 = 2)
    (double : (DecodedInst32.decode word').funct3 = 3)
    (ram : ((probe address base).cpu.readReg (DecodedInst32.decode word).rs1 +
      (DecodedInst32.decode word).sImm + 4).toNat < 0xFFFF0000) :
    (Fetched.word word).seen env (probe address base) ≠ (Fetched.word word').seen env
      (probe address base) := by
  intro same
  obtain ⟨mem, seen, kept⟩ := seen_fsw env (probe address base) _ rfl major single
  rw [seen] at same
  rcases seen_fsd env (probe address base) _ rfl major' double with crash | ⟨mem', seen', written⟩
  · cases same.trans crash
  · obtain ⟨-, -, -, -, -, memory⟩ := Seen.done.inj (same.trans seen')
    rw [← rs1, ← imm, ← memory] at written
    have clear := kept.trans (flat_new _)
    have upper : (probe address base).cpu.fregs (DecodedInst32.decode word').rs2 = 0x100000000 := rfl
    rw [written ram, upper] at clear
    exact absurd clear (by decide)

end Accesses

end RiscvRs
