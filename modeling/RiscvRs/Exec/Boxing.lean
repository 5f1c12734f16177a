import RiscvRs.Exec.FpValues
import RiscvRs.Machine.Fields

/-! Single-precision results: what every instruction with such a destination
puts into its register, and the moves that keep a pattern as it is. -/

namespace RiscvRs

open Effects Prog Bytes Ieee

/-- The instructions that compute or move a single into a floating-point register. -/
inductive SingleOp where
  | fadd | fsub | fmul | fdiv | fsqrt | fsgnj | fsgnjn | fsgnjx | fmin | fmax | fcvtSW | fcvtSWU | fcvtSD | fmvWX
  | fmadd | fmsub | fnmsub | fnmadd
deriving DecidableEq, Repr

namespace SingleOp

/-- The `funct5` field of an `OP_FP` form. -/
def funct5 : SingleOp → BitVec 5
  | fadd => 0x00
  | fsub => 0x01
  | fmul => 0x02
  | fdiv => 0x03
  | fsqrt => 0x0B
  | fsgnj | fsgnjn | fsgnjx => 0x04
  | fmin | fmax => 0x05
  | fcvtSW | fcvtSWU => 0x1A
  | fcvtSD => 0x08
  | _ => 0x1E

/-- The words of an instruction, by the fields that tell it from the others. -/
def Encodes (op : SingleOp) (inst : DecodedInst32) : Prop :=
  match op with
  | fmadd => inst.opcode = Opcode.madd.bits ∧ Isa.bits inst.raw.toNat 26 25 = 0
  | fmsub => inst.opcode = Opcode.msub.bits ∧ Isa.bits inst.raw.toNat 26 25 = 0
  | fnmsub => inst.opcode = Opcode.nmsub.bits ∧ Isa.bits inst.raw.toNat 26 25 = 0
  | fnmadd => inst.opcode = Opcode.nmadd.bits ∧ Isa.bits inst.raw.toNat 26 25 = 0
  | op => inst.opcode = Opcode.opFp.bits ∧ inst.funct7 = Precision.single.funct7 op.funct5 ∧
    match op with
    | fsgnj | fmin => inst.funct3 = 0
    | fsgnjn | fmax => inst.funct3 = 1
    | fsgnjx => inst.funct3 = 2
    | fcvtSW => inst.rs2 = 0
    | fcvtSWU => inst.rs2 = 1
    | _ => True

/-- Sign injections and moves carry bits over; the others compute a value. -/
def moves : SingleOp → Bool
  | fsgnj | fsgnjn | fsgnjx | fmvWX => true
  | _ => false

/-- The value, from the singles in `rs1`, `rs2` and `rs3`, the integer in `rs1` and the double in
`rs1`. -/
def value (fpu : Fpu) (s1 s2 s3 x1 : U32) (d1 : U64) : SingleOp → U32
  | fadd => fpu.addS s1 s2
  | fsub => fpu.subS s1 s2
  | fmul => fpu.mulS s1 s2
  | fdiv => fpu.divS s1 s2
  | fsqrt => fpu.sqrtS s1
  | fsgnj => BitVec.cons s2.msb (s1.setWidth 31)
  | fsgnjn => BitVec.cons (!s2.msb) (s1.setWidth 31)
  | fsgnjx => BitVec.cons (s1.msb ^^ s2.msb) (s1.setWidth 31)
  | fmin =>
    if single.isNan s1.toNat then s2 else if single.isNan s2.toNat then s1 else fpu.minS s1 s2
  | fmax =>
    if single.isNan s1.toNat then s2 else if single.isNan s2.toNat then s1 else fpu.maxS s1 s2
  | fcvtSW => fpu.i32ToS x1
  | fcvtSWU => fpu.u32ToS x1
  | fcvtSD => fpu.dToS d1
  | fmvWX => x1
  | fmadd => fpu.addS (fpu.mulS s1 s2) s3
  | fmsub => fpu.subS (fpu.mulS s1 s2) s3
  | fnmsub => 0x80000000 ^^^ fpu.subS (fpu.mulS s1 s2) s3
  | fnmadd => 0x80000000 ^^^ fpu.addS (fpu.mulS s1 s2) s3

end SingleOp

/-- The single in a register, or the canonical NaN when the register holds none. -/
def Cpu.single (cpu : Cpu) (r : Fin 32) : U32 :=
  BitVec.ofNat 32 ((Precision.single.datum? cpu r).getD 0x7FC00000)

/-- What an instruction leaves: a NaN it computes becomes the canonical one. -/
def SingleOp.result (op : SingleOp) (fpu : Fpu) (cpu : Cpu) (inst : DecodedInst32) : U32 :=
  let val := op.value fpu (cpu.single inst.rs1) (cpu.single inst.rs2) (cpu.single inst.rs3)
    (cpu.readReg inst.rs1) (cpu.fregs inst.rs1)
  if !op.moves && Ieee.single.isNan val.toNat then 0x7FC00000 else val

/-- `rd` received a boxed single and no other floating-point register changed. -/
structure WritesSingle (cpu cpu' : Cpu) (rd : Fin 32) (val : U32) : Prop where
  upper : (cpu'.fregs rd).toNat / 2 ^ 32 = 2 ^ 32 - 1
  lower : (cpu'.fregs rd).toNat % 2 ^ 32 = val.toNat
  others : ∀ r, r ≠ rd → cpu'.fregs r = cpu.fregs r

section Boxed

theorem boxed_toNat (val : U32) : (Cpu.boxed val).toNat = 0xFFFFFFFF * 2 ^ 32 + val.toNat := by
  have wide : (val.setWidth 64 : U64).toNat = val.toNat := BitVec.toNat_setWidth_of_le (by decide)
  have joined := Nat.shiftLeft_add_eq_or_of_lt val.isLt 0xFFFFFFFF
  rw [Cpu.boxed, BitVec.toNat_or, wide, ← Nat.shiftLeft_eq, joined]
  rfl

/-- A register written with a boxed pattern. -/
theorem writesSingle_setFreg (cpu : Cpu) (rd : Fin 32) (val pc : U32) :
    WritesSingle cpu { cpu.setFreg rd (Cpu.boxed val) with pc := pc } rd val where
  upper := by
    have bound := val.isLt
    simp only [Cpu.setFreg, Function.update_self, boxed_toNat]
    omega
  lower := by
    have bound := val.isLt
    simp only [Cpu.setFreg, Function.update_self, boxed_toNat]
    omega
  others := fun r apart => Function.update_of_ne apart _ _

theorem readF32_eq (cpu : Cpu) (r : Fin 32) : cpu.readF32 r = cpu.single r := by
  rw [Cpu.single, ← readF32_toNat, BitVec.ofNat_toNat, BitVec.setWidth_eq]

/-- `write_f32` boxes every value, with one pattern for every NaN. -/
theorem singleBits_eq (val : U32) :
    Cpu.singleBits val = Cpu.boxed (if Ieee.single.isNan val.toNat then 0x7FC00000 else val) := by
  rw [Cpu.singleBits]
  split <;> rfl

/-- A sign bit in front of a magnitude. -/
theorem sign_magnitude (sign magnitude : U32) :
    (magnitude &&& 0x7FFFFFFF) ||| (sign &&& 0x80000000) = BitVec.cons sign.msb
      (magnitude.setWidth 31) := by
  have low : (0x7FFFFFFF : U32) = (BitVec.allOnes 31).setWidth 32 := rfl
  have high : (0x80000000 : U32) = BitVec.twoPow 32 31 := rfl
  apply BitVec.eq_of_getElem_eq
  intro i inside
  rw [low, high, BitVec.getElem_cons, BitVec.getElem_or, BitVec.getElem_and, BitVec.getElem_and,
    BitVec.getElem_setWidth, BitVec.getLsbD_allOnes, BitVec.getElem_twoPow]
  by_cases top : i = 31
  · subst top
    simp [BitVec.msb_eq_getLsbD_last]
  · have below : i < 31 := by omega
    simp [top, below, BitVec.getLsbD_eq_getElem inside]

/-- The precision field of a fused form. -/
theorem fused_format {raw : U32} (plain : Isa.bits raw.toNat 26 25 = 0) :
    ((shiftThenMask raw 25 3).setWidth 8 : U8) = 0 := by
  apply BitVec.eq_of_toNat_eq
  rw [BitVec.toNat_setWidth, toNat_shiftThenMask raw 3 25 2 rfl]
  simp only [Isa.bits] at plain
  rw [plain]
  rfl

section Decoded

variable {env : Env} {raw : U32} {inst : DecodedInst32} (cpu : Cpu) (next : U32)

theorem SingleOp.computed_eq {op : SingleOp} (computes : op.moves = false) (fpu : Fpu) :
    Cpu.boxed (op.result fpu cpu inst) = Cpu.singleBits (op.value fpu (cpu.readF32 inst.rs1)
      (cpu.readF32 inst.rs2) (cpu.readF32 inst.rs3) (cpu.readReg inst.rs1)
        (cpu.fregs inst.rs1)) := by
  rw [singleBits_eq, readF32_eq, readF32_eq, readF32_eq, SingleOp.result, computes]
  rfl

theorem SingleOp.moved_eq {op : SingleOp} (moves : op.moves = true) (fpu : Fpu) :
    op.result fpu cpu inst = op.value fpu (cpu.readF32 inst.rs1)
      (cpu.readF32 inst.rs2) (cpu.readF32 inst.rs3) (cpu.readReg inst.rs1)
        (cpu.fregs inst.rs1) := by
  rw [readF32_eq, readF32_eq, readF32_eq, SingleOp.result, moves]
  rfl

/-- A fused form writes the canonical form of its value. -/
theorem op_fused {code : Opcode} {res : U32} (known : code = .madd ∨ code = .msub ∨ code = .nmsub ∨
    code = .nmadd)
    (major : inst.opcode = code.bits) (plain : Isa.bits inst.raw.toNat 26 25 = 0)
    (value : fusedResult env.fpu.mulS env.fpu.addS env.fpu.subS (0x80000000 ^^^ ·) code.bits
      (cpu.readF32 inst.rs1) (cpu.readF32 inst.rs2) (cpu.readF32 inst.rs3) = some res) :
    inst.op env cpu next = .writeF inst.rd (Cpu.singleBits res) next := by
  have group : inst.op env cpu next = inst.fusedOp env cpu next := by
    rw [DecodedInst32.op, major, Opcode.ofBits?_bits]
    rcases known with rfl | rfl | rfl | rfl <;> rfl
  rw [group, DecodedInst32.fusedOp, if_pos (fused_format plain), major, value]
  rfl

variable (env) in
/-- An `OP_FP` word with single precision. -/
theorem op_single (funct5 : BitVec 5) (major : inst.opcode = Opcode.opFp.bits)
    (field : inst.funct7 = Precision.single.funct7 funct5) :
    inst.op env cpu next = inst.opFpSOp env cpu next ∧ inst.funct7 >>> 2 = funct5.setWidth 8 := by
  have width : ∀ bits, Precision.single.funct7 bits &&& 0x3 = 0 := by decide
  have operation : ∀ bits, Precision.single.funct7 bits >>> 2 = bits.setWidth 8 := by decide
  rw [op_opFp _ _ _ major, DecodedInst32.opFpOp, field, if_pos (width funct5)]
  exact ⟨rfl, operation funct5⟩

variable (env) in
/-- Decoded, an instruction writes its boxed result. -/
theorem SingleOp.op_eq {op : SingleOp} (encodes : op.Encodes inst) :
    inst.op env cpu next = .writeF inst.rd (Cpu.boxed (op.result env.fpu cpu inst)) next := by
  cases op with
  | fmadd =>
    exact (op_fused cpu next (.inl rfl) encodes.1 encodes.2 rfl).trans
      (by rw [computed_eq _ rfl]; rfl)
  | fmsub =>
    exact (op_fused cpu next (.inr (.inl rfl)) encodes.1 encodes.2 rfl).trans
      (by rw [computed_eq _ rfl]; rfl)
  | fnmsub =>
    exact (op_fused cpu next (.inr (.inr (.inl rfl))) encodes.1 encodes.2 rfl).trans
      (by rw [computed_eq _ rfl]; rfl)
  | fnmadd =>
    exact (op_fused cpu next (.inr (.inr (.inr rfl))) encodes.1 encodes.2 rfl).trans
      (by rw [computed_eq _ rfl]; rfl)
  | fadd | fsub | fmul | fdiv | fsqrt | fcvtSD =>
    obtain ⟨group, operation⟩ := op_single env cpu next _ encodes.1 encodes.2.1
    rw [group, DecodedInst32.opFpSOp, operation, computed_eq _ rfl]
    rfl
  | fmin | fmax =>
    obtain ⟨group, operation⟩ := op_single env cpu next _ encodes.1 encodes.2.1
    rw [group, DecodedInst32.opFpSOp, operation, encodes.2.2, computed_eq _ rfl]
    rfl
  | fcvtSW | fcvtSWU =>
    obtain ⟨group, operation⟩ := op_single env cpu next _ encodes.1 encodes.2.1
    rw [group, DecodedInst32.opFpSOp, operation, encodes.2.2, computed_eq _ rfl]
    rfl
  | fsgnj =>
    obtain ⟨group, operation⟩ := op_single env cpu next _ encodes.1 encodes.2.1
    rw [group, DecodedInst32.opFpSOp, operation, encodes.2.2, moved_eq _ rfl]
    exact congrArg (fun bits => Op.writeF inst.rd (Cpu.boxed bits) next) (sign_magnitude _ _)
  | fsgnjn =>
    obtain ⟨group, operation⟩ := op_single env cpu next _ encodes.1 encodes.2.1
    rw [group, DecodedInst32.opFpSOp, operation, encodes.2.2, moved_eq _ rfl, value]
    refine congrArg (fun bits => Op.writeF inst.rd (Cpu.boxed bits) next)
      ((sign_magnitude _ _).trans ?_)
    rw [BitVec.msb_not, decide_eq_true (by decide), Bool.true_and]
  | fsgnjx =>
    obtain ⟨group, operation⟩ := op_single env cpu next _ encodes.1 encodes.2.1
    rw [group, DecodedInst32.opFpSOp, operation, encodes.2.2, moved_eq _ rfl, value,
      ← BitVec.msb_xor]
    exact congrArg (fun bits => Op.writeF inst.rd (Cpu.boxed bits) next) (sign_magnitude _ _)
  | fmvWX =>
    obtain ⟨group, operation⟩ := op_single env cpu next _ encodes.1 encodes.2.1
    rw [group, DecodedInst32.opFpSOp, operation, moved_eq _ rfl]
    rfl

end Decoded

end Boxed

/-- Address and target register of `FLW`, `C.FLW` and `C.FLWSP`. -/
def Fetched.singleLoad? (cpu : Cpu) : Fetched → Option (U32 × Fin 32)
  | word raw =>
    let inst := DecodedInst32.decode raw
    if Opcode.ofBits? inst.opcode = some .loadFp ∧ inst.funct3 = 2 then
      some (cpu.readReg inst.rs1 + inst.iImm, inst.rd)
    else none
  | half inst =>
    let decoded := DecodedInst16.decode inst
    if decoded.op = 0 ∧ decoded.funct3 = 3 then
      some (cpu.readReg (creg inst 7) + clWordOffset inst, creg inst 2)
    else if decoded.op = 2 ∧ decoded.funct3 = 3 then
      some (cpu.readReg 2 + ciWordSpOffset inst, regField16 inst 7)
    else none

/-- Address and source register of `FSW`, `C.FSW` and `C.FSWSP`. -/
def Fetched.singleStore? (cpu : Cpu) : Fetched → Option (U32 × Fin 32)
  | word raw =>
    let inst := DecodedInst32.decode raw
    if Opcode.ofBits? inst.opcode = some .storeFp ∧ inst.funct3 = 2 then
      some (cpu.readReg inst.rs1 + inst.sImm, inst.rs2)
    else none
  | half inst =>
    let decoded := DecodedInst16.decode inst
    if decoded.op = 0 ∧ decoded.funct3 = 7 then
      some (cpu.readReg (creg inst 7) + clWordOffset inst, creg inst 2)
    else if decoded.op = 2 ∧ decoded.funct3 = 7 then
      some (cpu.readReg 2 + cssWordSpOffset inst, regField16 inst 2)
    else none

section Moves

variable {env : Env} {inst : Fetched} {m m' : Machine} {addr : U32} {r : Fin 32}

theorem op_singleLoad (env : Env) (cpu : Cpu) (decoded : inst.singleLoad? cpu = some (addr, r)) :
    ∃ next, inst.op env cpu = .loadSingle r addr next := by
  cases inst with
  | word raw =>
    simp only [Fetched.singleLoad?] at decoded
    split at decoded
    · next fields =>
      obtain ⟨rfl, rfl⟩ := by simpa using decoded
      refine ⟨cpu.pc + 4, ?_⟩
      rw [Fetched.op, DecodedInst32.op, fields.1]
      exact if_pos fields.2
    · cases decoded
  | half c =>
    simp only [Fetched.singleLoad?] at decoded
    split at decoded
    · next fields =>
      obtain ⟨rfl, rfl⟩ := by simpa using decoded
      refine ⟨cpu.pc + 2, ?_⟩
      rw [Fetched.op, fields.1, fields.2]
      rfl
    · split at decoded
      · next fields =>
        obtain ⟨rfl, rfl⟩ := by simpa using decoded
        refine ⟨cpu.pc + 2, ?_⟩
        rw [Fetched.op, fields.1, fields.2]
        rfl
      · cases decoded

theorem op_singleStore (env : Env) (cpu : Cpu) (decoded : inst.singleStore? cpu = some (addr, r)) :
    ∃ next, inst.op env cpu = .store .word addr
      ((cpu.fregs r &&& 0xFFFFFFFF).setWidth 32) next := by
  cases inst with
  | word raw =>
    simp only [Fetched.singleStore?] at decoded
    split at decoded
    · next fields =>
      obtain ⟨rfl, rfl⟩ := by simpa using decoded
      refine ⟨cpu.pc + 4, ?_⟩
      rw [Fetched.op, DecodedInst32.op, fields.1]
      exact if_pos fields.2
    · cases decoded
  | half c =>
    simp only [Fetched.singleStore?] at decoded
    split at decoded
    · next fields =>
      obtain ⟨rfl, rfl⟩ := by simpa using decoded
      refine ⟨cpu.pc + 2, ?_⟩
      rw [Fetched.op, fields.1, fields.2]
      rfl
    · split at decoded
      · next fields =>
        obtain ⟨rfl, rfl⟩ := by simpa using decoded
        refine ⟨cpu.pc + 2, ?_⟩
        rw [Fetched.op, fields.1, fields.2]
        rfl
      · cases decoded

/-- A load boxes the word it reads. -/
theorem singleLoad_ok (decoded : inst.singleLoad? m.cpu = some (addr, r))
    (run : (inst.execute env).run m = .ok () m') :
    ∃ raw, (Memory.readU32 env.host addr : Prog Bus CpuError _).run m.bus = .ok raw m'.bus ∧
      WritesSingle m.cpu m'.cpu r raw := by
  obtain ⟨target, operation⟩ := op_singleLoad env m.cpu decoded
  obtain ⟨next, n, exec, rfl⟩ := Fetched.execute_ok run
  rw [operation] at exec
  obtain ⟨raw, n', load, write⟩ := bind_ok.mp exec
  obtain ⟨bus, read, rfl⟩ := zoom_ok.mp load
  obtain ⟨-, rfl⟩ := Outcome.ok.inj write
  exact ⟨raw, read, writesSingle_setFreg m.cpu r raw next⟩

theorem lower_half (x : U64) :
    ((x &&& 0xFFFFFFFF).setWidth 32 : U32) = BitVec.ofNat 32 (x.toNat % 2 ^ 32) := by
  have low : x.toNat &&& 2 ^ 32 - 1 = x.toNat % 2 ^ 32 := Nat.and_two_pow_sub_one_eq_mod x.toNat 32
  apply BitVec.eq_of_toNat_eq
  rw [BitVec.toNat_setWidth, BitVec.toNat_and, BitVec.toNat_ofNat, ← low]
  rfl

/-- A store writes the lower half of its register. -/
theorem singleStore_ok (decoded : inst.singleStore? m.cpu = some (addr, r))
    (run : (inst.execute env).run m = .ok () m') :
    (Memory.writeU32 addr (BitVec.ofNat 32 ((m.cpu.fregs r).toNat % 2 ^ 32)) :
      Prog Bus CpuError _).run m.bus = .ok () m'.bus := by
  obtain ⟨target, operation⟩ := op_singleStore env m.cpu decoded
  obtain ⟨next, n, exec, rfl⟩ := Fetched.execute_ok run
  rw [operation] at exec
  obtain ⟨u, n', store, goes⟩ := bind_ok.mp exec
  obtain ⟨bus, write, rfl⟩ := zoom_ok.mp store
  obtain ⟨-, rfl⟩ := Outcome.ok.inj goes
  rw [← lower_half]
  exact write

/-- A word read from memory and written to memory is spelled by the same bytes. -/
theorem word_copied {bus bus' busOut : Bus} {src dst raw : U32} {busIn : Bus} (host : Host)
    (source : src.toNat + 4 ≤ 0xFFFF0000) (target : dst.toNat + 4 ≤ 0xFFFF0000)
    (read : (Memory.readU32 host src : Prog Bus CpuError _).run bus = .ok raw bus')
    (write : (Memory.writeU32 dst raw : Prog Bus CpuError _).run busIn = .ok () busOut) :
    span busOut.mem.flat dst 4 = span bus.mem.flat src 4 := by
  obtain ⟨rfl, -⟩ := Outcome.ok.inj (read.symm.trans (readU32_below host bus source))
  obtain ⟨mem, written, flat⟩ := writeU32_below (ε := CpuError) busIn target
    (BitVec.ofNat 32 (leNat (span bus.mem.flat src 4)))
  obtain ⟨-, rfl⟩ := Outcome.ok.inj (write.symm.trans written)
  have bound := leNat_lt (span bus.mem.flat src 4)
  rw [length_span] at bound
  refine leNat_inj (by rw [length_span, length_span]) ?_
  rw [flat, span_overlay _ _ _ _ (by decide), leNat_leBytes, BitVec.toNat_ofNat]
  omega

/-- `FMV.X.W`: the lower half of its source. -/
theorem fmvXW_ok {raw : U32} {decoded : DecodedInst32} (fields : DecodedInst32.decode raw = decoded)
    (major : decoded.opcode = Opcode.opFp.bits)
    (operation : decoded.funct7 = Precision.single.funct7 0x1C)
    (form : decoded.funct3 = 0) (env : Env) (m : Machine) :
    (executeInst32 env raw).run m = .ok () { m with cpu := { m.cpu.writeReg decoded.rd
      (BitVec.ofNat 32 ((m.cpu.fregs decoded.rs1).toNat % 2 ^ 32)) with pc := m.cpu.pc + 4 } } := by
  obtain ⟨group, moved⟩ := op_single env m.cpu (m.cpu.pc + 4) _ major operation
  refine executeInst32_write fields ?_
  rw [group, DecodedInst32.opFpSOp, moved, form, ← lower_half]
  rfl

/-- Every instruction with a single-precision destination boxes its result and changes no other
floating-point register; a NaN it computes is the canonical one, and a register without a
boxed single counts as that NaN (`SingleOp.result`). Loads, stores and moves between the
register files carry every pattern over as it is. -/
theorem single_precision_boxed (env : Env) :
    (∀ (raw : U32) (inst : DecodedInst32) (op : SingleOp) (m : Machine),
      DecodedInst32.decode raw = inst →
      op.Encodes inst → ∃ m', (executeInst32 env raw).run m = .ok () m' ∧
        WritesSingle m.cpu m'.cpu inst.rd (op.result env.fpu m.cpu inst) ∧
        (op = .fmvWX → ∀ (raw' : U32) (inst' : DecodedInst32) (n : Machine),
          DecodedInst32.decode raw' = inst' →
          inst'.opcode = Opcode.opFp.bits → inst'.funct7 = Precision.single.funct7 0x1C →
            inst'.funct3 = 0 →
          n.cpu.fregs inst'.rs1 = m'.cpu.fregs inst.rd →
          (executeInst32 env raw').run n = .ok () { n with
            cpu := { n.cpu.writeReg inst'.rd (m.cpu.readReg inst.rs1) with pc := n.cpu.pc + 4 } })) ∧
    (∀ (load : Fetched) (src : U32) (r : Fin 32) (m m' : Machine),
      load.singleLoad? m.cpu = some (src, r) →
      (load.execute env).run m = .ok () m' →
      ∃ raw, (Memory.readU32 env.host src : Prog Bus CpuError _).run m.bus = .ok raw m'.bus ∧
        WritesSingle m.cpu m'.cpu r raw ∧
        ∀ (store : Fetched) (dst : U32) (r' : Fin 32) (n n' : Machine),
          store.singleStore? n.cpu = some (dst, r') →
          n.cpu.fregs r' = m'.cpu.fregs r → (store.execute env).run n = .ok () n' →
          (Memory.writeU32 dst raw : Prog Bus CpuError _).run n.bus = .ok () n'.bus ∧
          (src.toNat + 4 ≤ 0xFFFF0000 → dst.toNat + 4 ≤ 0xFFFF0000 →
            span n'.bus.mem.flat dst 4 = span m.bus.mem.flat src 4)) := by
  constructor
  · intro raw inst op m decoded encodes
    have write := SingleOp.op_eq env m.cpu (m.cpu.pc + 4) encodes
    have run : (executeInst32 env raw).run m = .ok () { m with
        cpu := { m.cpu.setFreg inst.rd (Cpu.boxed (op.result env.fpu m.cpu inst)) with
          pc := m.cpu.pc + 4 } } := by
      rw [executeInst32_run, decoded, dispatch_exec, write]
      rfl
    have writes := writesSingle_setFreg m.cpu inst.rd (op.result env.fpu m.cpu inst) (m.cpu.pc + 4)
    refine ⟨_, run, writes, ?_⟩
    rintro rfl raw' inst' n fields major operation form same
    rw [fmvXW_ok fields major operation form, same, writes.lower, BitVec.ofNat_toNat,
      BitVec.setWidth_eq]
    rfl
  · intro load src r m m' decoded run
    obtain ⟨raw, read, writes⟩ := singleLoad_ok decoded run
    refine ⟨raw, read, writes, ?_⟩
    intro store dst r' n n' stored same run'
    have write := singleStore_ok stored run'
    rw [same, writes.lower, BitVec.ofNat_toNat, BitVec.setWidth_eq] at write
    exact ⟨write, fun source target => word_copied env.host source target read write⟩

/-- A signalling NaN through `flw f8, 0(x0)`, and through `fmv.w.x f8, x5` and `fmv.x.w x6, f8`. -/
theorem single_precision_boxed_signalling :
    (∃ raw m', ((Fetched.word 0x00002407).execute default).run Machine.new = .ok () m' ∧
      WritesSingle Machine.new.cpu m'.cpu 8 raw) ∧
    ∃ m' n', (executeInst32 default 0xF0028453).run
        { Machine.new with cpu := Cpu.new.writeReg 5 0x7FA00000 } = .ok () m' ∧
      (executeInst32 default 0xE0040353).run m' = .ok () n' ∧ n'.cpu.readReg 6 = 0x7FA00000 := by
  obtain ⟨computed, loaded⟩ := single_precision_boxed default
  constructor
  · obtain ⟨raw, -, writes, -⟩ := loaded (.word 0x00002407) 0 8 Machine.new _ rfl rfl
    exact ⟨raw, _, rfl, writes⟩
  · obtain ⟨m', run, -, moves⟩ := computed 0xF0028453 _ .fmvWX
      { Machine.new with cpu := Cpu.new.writeReg 5 0x7FA00000 } rfl ⟨rfl, rfl, trivial⟩
    have back := moves rfl 0xE0040353 _ m' rfl rfl rfl rfl rfl
    exact ⟨m', _, run, back, rfl⟩

end Moves

end RiscvRs
