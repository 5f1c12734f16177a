import RiscvRs.Exec.Slices
import RiscvRs.Exec.Spill
import RiscvRs.Exec.Values

/-! Compressed instructions against their expansions. -/

namespace RiscvRs

open Effects Prog
open Isa (slice)
open Isa.Asm

section Full

variable {env : Env} {m : Machine} {n : U32}

/-- What one 32-bit instruction does from `m`, with `n` as the fall-through address. -/
def full (env : Env) (m : Machine) (n : U32) (e : U32) : Outcome Machine CpuError U32 :=
  (executeInst32.dispatch env (DecodedInst32.decode e) m.cpu.pc n).run m

def Machine.wrote (m : Machine) (rd : BitVec 5) (val : U32) : Machine :=
  { m with cpu := m.cpu.writeReg rd.toFin val }

def Machine.read (m : Machine) (rs : BitVec 5) : U32 := m.cpu.readReg rs.toFin

theorem full_opImm (rd rs1 : BitVec 5) (funct3 : BitVec 3) (imm : BitVec 12) (result : U32 → U32)
    (known : ∀ src funct7 shamt,
      opImmValue (funct3.setWidth 8) funct7 src (imm.signExtend 32) shamt = some (result src)) :
    full env m n (Isa.encI rs1 funct3 rd 0b0010011 imm) = .ok n
      (m.wrote rd (result (m.read rs1))) := by
  obtain ⟨opcode, dest, minor, src, value⟩ := decode_encI rs1 funct3 rd 0b0010011 imm rfl
  have major : Opcode.ofBits? (DecodedInst32.decode (Isa.encI rs1 funct3 rd 0b0010011 imm)).opcode =
    some .imm := by
    rw [opcode]
    rfl
  simp only [full, executeInst32.dispatch, execRv32i, major, dest, minor, src, value,
    run_bind, run_getCpu,
    Outcome.andThen_ok, opImmResult_shamt, known, orIllegal, run_pure, run_modifyCpu]
  rfl

theorem full_addi (rd rs1 : BitVec 5) (imm : BitVec 12) :
    full env m n (addi rd rs1 imm) = .ok n (m.wrote rd (m.read rs1 + imm.signExtend 32)) :=
  full_opImm rd rs1 0b000 imm (· + imm.signExtend 32) fun _ _ _ => rfl

theorem full_andi (rd rs1 : BitVec 5) (imm : BitVec 12) :
    full env m n (andi rd rs1 imm) = .ok n (m.wrote rd (m.read rs1 &&& imm.signExtend 32)) :=
  full_opImm rd rs1 0b111 imm (· &&& imm.signExtend 32) fun _ _ _ => rfl

theorem full_shift (rd rs1 shamt : BitVec 5) (funct7 : BitVec 7) (funct3 : BitVec 3)
    (result : U32 → U32)
    (known : ∀ src imm,
      opImmValue (funct3.setWidth 8) (funct7.setWidth 8) src imm shamt.toNat = some (result src)) :
    full env m n (Isa.encR funct7 shamt rs1 funct3 rd 0b0010011) = .ok n
      (m.wrote rd (result (m.read rs1))) := by
  obtain ⟨opcode, dest, minor, src, amount, top⟩ :=
    decode_encR funct7 shamt rs1 funct3 rd 0b0010011 rfl
  have major : Opcode.ofBits? (DecodedInst32.decode
    (Isa.encR funct7 shamt rs1 funct3 rd 0b0010011)).opcode =
      some .imm := by
    rw [opcode]
    rfl
  have masked : shamt.toNat &&& 0x1F = shamt.toNat := by
    rw [Nat.and_two_pow_sub_one_eq_mod shamt.toNat 5, Nat.mod_eq_of_lt shamt.isLt]
  simp only [full, executeInst32.dispatch, execRv32i, major, dest, minor, src, amount, top,
    run_bind, run_getCpu,
    Outcome.andThen_ok, BitVec.val_toFin, masked, opImmResult_eq env.build _ shamt.isLt, known,
      orIllegal, run_pure,
    run_modifyCpu]
  rfl

theorem full_slli (rd rs1 shamt : BitVec 5) :
    full env m n (slli rd rs1 shamt) = .ok n (m.wrote rd (m.read rs1 <<< shamt.toNat)) :=
  full_shift rd rs1 shamt 0b0000000 0b001 (· <<< shamt.toNat) fun _ _ => rfl

theorem full_srli (rd rs1 shamt : BitVec 5) :
    full env m n (srli rd rs1 shamt) = .ok n (m.wrote rd (m.read rs1 >>> shamt.toNat)) :=
  full_shift rd rs1 shamt 0b0000000 0b101 (· >>> shamt.toNat) fun _ _ => rfl

theorem full_srai (rd rs1 shamt : BitVec 5) :
    full env m n (srai rd rs1 shamt) = .ok n (m.wrote rd ((m.read rs1).sshiftRight shamt.toNat)) :=
  full_shift rd rs1 shamt 0b0100000 0b101 (·.sshiftRight shamt.toNat) fun _ _ => rfl

theorem full_op (rd rs1 rs2 : BitVec 5) (funct7 : BitVec 7) (funct3 : BitVec 3)
    (result : U32 → U32 → U32)
    (known : ∀ src1 src2, opValue (funct7.setWidth 8) (funct3.setWidth 8) src1 src2 =
      some (result src1 src2)) :
    full env m n (Isa.encR funct7 rs2 rs1 funct3 rd 0b0110011) =
      .ok n (m.wrote rd (result (m.read rs1) (m.read rs2))) := by
  obtain ⟨opcode, dest, minor, src1, src2, top⟩ :=
    decode_encR funct7 rs2 rs1 funct3 rd 0b0110011 rfl
  have major : Opcode.ofBits? (DecodedInst32.decode
    (Isa.encR funct7 rs2 rs1 funct3 rd 0b0110011)).opcode =
      some .op := by
    rw [opcode]
    rfl
  have base : funct7.setWidth 8 ≠ 0x01 := by
    intro muldiv
    rw [muldiv] at known
    cases known 0 0
  simp only [full, executeInst32.dispatch, execRv32i, major, dest, minor, src1, src2, top,
    if_neg base, run_bind,
    run_getCpu, Outcome.andThen_ok, opResult_eq, known, orIllegal, run_pure, run_modifyCpu]
  rfl

theorem full_lui (rd : BitVec 5) (imm : BitVec 20) :
    full env m n (lui rd imm) = .ok n (m.wrote rd (imm ++ 0#12)) := by
  obtain ⟨opcode, dest, value⟩ :=
    decode_encU _ _ _ (show DecodedInst32.decode (lui rd imm) = _ from rfl)
  have major : Opcode.ofBits? (DecodedInst32.decode (lui rd imm)).opcode = some .lui :=
    congrArg _ opcode
  simp only [full, executeInst32.dispatch, execRv32i, major, dest, value, run_bind, run_getCpu,
    Outcome.andThen_ok,
    run_pure, run_modifyCpu]
  rfl

theorem full_jal (rd : BitVec 5) (offset : BitVec 21) (even : offset.toNat % 2 = 0) :
    full env m n (jal rd offset) = .ok (m.cpu.pc + offset.signExtend 32) (m.wrote rd n) := by
  obtain ⟨opcode, dest, value⟩ :=
    decode_encJ _ _ _ even (show DecodedInst32.decode (jal rd offset) = _ from rfl)
  have major : Opcode.ofBits? (DecodedInst32.decode (jal rd offset)).opcode = some .jal :=
    congrArg _ opcode
  simp only [full, executeInst32.dispatch, execRv32i, major, dest, value, run_bind, run_getCpu,
    Outcome.andThen_ok,
    run_pure, run_modifyCpu]
  rfl

theorem full_jalr (rd rs1 : BitVec 5) :
    full env m n (jalr rd rs1 0) = .ok (m.read rs1 &&& ~~~1) (m.wrote rd n) := by
  obtain ⟨opcode, dest, -, src, value⟩ :=
    decode_encI _ _ _ _ _ (show DecodedInst32.decode (jalr rd rs1 0) = _ from rfl)
  have major : Opcode.ofBits? (DecodedInst32.decode (jalr rd rs1 0)).opcode = some .jalr :=
    congrArg _ opcode
  have plain : (DecodedInst32.decode (jalr rd rs1 0)).iImm = 0#32 := value
  simp only [full, executeInst32.dispatch, execRv32i, major, dest, src, plain, BitVec.add_zero,
    run_bind, run_getCpu,
    Outcome.andThen_ok, run_pure, run_modifyCpu]
  rfl

/-- `BEQ` and `BNE`, by `funct3`. -/
theorem full_branch (rs1 rs2 : BitVec 5) (funct3 : BitVec 3) (offset : BitVec 13)
    (even : offset.toNat % 2 = 0)
    (taken : U32 → U32 → Bool)
    (known : ∀ src1 src2, branchTaken (funct3.setWidth 8) src1 src2 = some (taken src1 src2)) :
    full env m n (Isa.encB rs2 rs1 funct3 0b1100011 offset) =
      .ok (if taken (m.read rs1) (m.read rs2) then m.cpu.pc + offset.signExtend 32 else n) m := by
  obtain ⟨opcode, minor, src1, src2, value⟩ := decode_encB rs2 rs1 funct3 0b1100011 offset even rfl
  have major : Opcode.ofBits? (DecodedInst32.decode
    (Isa.encB rs2 rs1 funct3 0b1100011 offset)).opcode =
      some .branch := congrArg _ opcode
  simp only [full, executeInst32.dispatch, execRv32i, major, minor, src1, src2, value,
    run_bind, run_getCpu,
    Outcome.andThen_ok, known, orIllegal, run_pure]
  rfl

/-- A program followed by the fall-through address. -/
def fallThrough (n : U32) (x : Exec Unit) (m : Machine) : Outcome Machine CpuError U32 :=
  (x >>= fun _ => pure n).run m

theorem full_lw (rd rs1 : BitVec 5) (imm : BitVec 12) :
    full env m n (lw rd rs1 imm) = fallThrough n
      (loadWord env rd.toFin (m.read rs1 + imm.signExtend 32)) m := by
  obtain ⟨opcode, dest, minor, src, value⟩ :=
    decode_encI _ _ _ _ _ (show DecodedInst32.decode (lw rd rs1 imm) = _ from rfl)
  have major : Opcode.ofBits? (DecodedInst32.decode (lw rd rs1 imm)).opcode = some .load :=
    congrArg _ opcode
  rw [fallThrough, loadWord, bind_assoc]
  simp only [full, executeInst32.dispatch, execRv32i, major, dest, minor, src, value]
  rfl

theorem full_sw (rs2 rs1 : BitVec 5) (imm : BitVec 12) :
    full env m n (sw rs2 rs1 imm) =
      fallThrough n (onBus (Memory.writeU32 (m.read rs1 + imm.signExtend 32) (m.read rs2))) m := by
  obtain ⟨opcode, minor, src1, src2, value⟩ :=
    decode_encS _ _ _ _ _ (show DecodedInst32.decode (sw rs2 rs1 imm) = _ from rfl)
  have major : Opcode.ofBits? (DecodedInst32.decode (sw rs2 rs1 imm)).opcode = some .store :=
    congrArg _ opcode
  simp only [full, executeInst32.dispatch, execRv32i, major, minor, src1, src2, value]
  rfl

theorem full_flw (rd rs1 : BitVec 5) (imm : BitVec 12) :
    full env m n (flw rd rs1 imm) = fallThrough n
      (loadSingle env rd.toFin (m.read rs1 + imm.signExtend 32)) m := by
  obtain ⟨opcode, dest, minor, src, value⟩ :=
    decode_encI _ _ _ _ _ (show DecodedInst32.decode (flw rd rs1 imm) = _ from rfl)
  have major : Opcode.ofBits? (DecodedInst32.decode (flw rd rs1 imm)).opcode = some .loadFp :=
    congrArg _ opcode
  simp only [full, executeInst32.dispatch, execRv32fd, execLoadFp, major, dest, minor, src, value]
  rfl

theorem full_fsw (rs2 rs1 : BitVec 5) (imm : BitVec 12) :
    full env m n (fsw rs2 rs1 imm) =
      fallThrough n (onBus (Memory.writeU32 (m.read rs1 + imm.signExtend 32)
        ((m.cpu.fregs rs2.toFin &&& 0xFFFFFFFF).setWidth 32))) m := by
  obtain ⟨opcode, minor, src1, src2, value⟩ :=
    decode_encS _ _ _ _ _ (show DecodedInst32.decode (fsw rs2 rs1 imm) = _ from rfl)
  have major : Opcode.ofBits? (DecodedInst32.decode (fsw rs2 rs1 imm)).opcode = some .storeFp :=
    congrArg _ opcode
  simp only [full, executeInst32.dispatch, execRv32fd, execStoreFp, major, minor, src1, src2, value]
  rfl

theorem full_fld (rd rs1 : BitVec 5) (imm : BitVec 12)
    (modular : Modular env (m.read rs1 + imm.signExtend 32)) :
    full env m n (fld rd rs1 imm) = fallThrough n
      (loadDouble env rd.toFin (m.read rs1 + imm.signExtend 32)) m := by
  obtain ⟨opcode, dest, minor, src, value⟩ :=
    decode_encI _ _ _ _ _ (show DecodedInst32.decode (fld rd rs1 imm) = _ from rfl)
  have major : Opcode.ofBits? (DecodedInst32.decode (fld rd rs1 imm)).opcode = some .loadFp :=
    congrArg _ opcode
  rw [Machine.read, ← src, ← value] at modular ⊢
  simp only [full, executeInst32.dispatch, execRv32fd, major, fallThrough, run_bind,
    execLoadFp_double minor modular,
    dest]

theorem full_fsd (rs2 rs1 : BitVec 5) (imm : BitVec 12)
    (modular : Modular env (m.read rs1 + imm.signExtend 32)) :
    full env m n (fsd rs2 rs1 imm) =
      fallThrough n (storeDouble (m.cpu.fregs rs2.toFin) (m.read rs1 + imm.signExtend 32)) m := by
  obtain ⟨opcode, minor, src1, src2, value⟩ :=
    decode_encS _ _ _ _ _ (show DecodedInst32.decode (fsd rs2 rs1 imm) = _ from rfl)
  have major : Opcode.ofBits? (DecodedInst32.decode (fsd rs2 rs1 imm)).opcode = some .storeFp :=
    congrArg _ opcode
  rw [Machine.read, ← src1, ← value] at modular ⊢
  simp only [full, executeInst32.dispatch, execRv32fd, major, fallThrough, run_bind,
    execStoreFp_double minor modular,
    src2]

theorem full_ebreak :
    full env m n ebreak = .ok n { m with cpu := { m.cpu with isHalted := true } } := rfl

end Full

/-- Where the compressed interpreter succeeds, there is an expansion and it does the same. -/
def Matches (env : Env) (m : Machine) (n : U32) (outcome : Outcome Machine CpuError U32)
    (e? : Option U32) : Prop :=
  ∀ next m', outcome = .ok next m' → ∃ e, e? = some e ∧ full env m n e = .ok next m'

section Matching

variable {env : Env} {m : Machine} {n : U32} (c : U16)

theorem matches_same {outcome : Outcome Machine CpuError U32} {e : U32}
    (same : full env m n e = outcome) :
    Matches env m n outcome (some e) := by
  intro next m' run
  exact ⟨e, rfl, same.trans run⟩

theorem matches_illegal (e? : Option U32) :
    Matches env m n ((illegal16 c : Exec U32).run m) e? := by
  intro next m' run
  cases run

/-- Writing a register's own value back. -/
theorem wrote_read (rd : BitVec 5) : m.wrote rd (m.read rd) = m := by
  by_cases named : rd.toFin = 0
  · rw [Machine.wrote, Cpu.writeReg, if_neg (not_not.mpr named)]
  · rw [Machine.wrote, Machine.read, Cpu.writeReg, Cpu.readReg, if_pos named, if_neg named,
      Function.update_eq_self]

theorem three_bits (f : BitVec 3) : f = 0 ∨ f = 1 ∨ f = 2 ∨ f = 3 ∨ f = 4 ∨ f = 5 ∨
    f = 6 ∨ f = 7 := by
  decide +revert

theorem read_zero : m.read 0 = 0#32 := rfl

theorem addi4spn_matches : Matches env m n ((execQuadrant0 env c 0 n).run m) (Isa.expand0 c 0) := by
  by_cases zero : Isa.immCIW c = 0
  · have reserved : (execQuadrant0 env c 0 n).run m = (illegal16 c : Exec U32).run m := by
      change ((if addi4spnImm c = 0 then illegal16 c else _ : Exec U32)).run m = _
      rw [if_pos ((addi4spnImm_eq_zero_iff c).mpr zero)]
    rw [reserved]
    exact matches_illegal c _
  · have expansion : Isa.expand0 c 0 = some (addi (Isa.rdC c) 2 ((Isa.immCIW c).setWidth 12)) :=
      if_neg zero
    have run : (execQuadrant0 env c 0 n).run m =
        .ok n (m.wrote (Isa.rdC c) (m.read 2 + (Isa.immCIW c).setWidth 32)) := by
      change ((if addi4spnImm c = 0 then illegal16 c else _ : Exec U32)).run m = _
      rw [if_neg (mt (addi4spnImm_eq_zero_iff c).mp zero), creg_rd, addi4spnImm_eq]
      rfl
    rw [expansion, run]
    refine matches_same ?_
    rw [← extend_unsigned _ (by decide)]
    exact full_addi _ _ _

theorem quadrant0_matches (funct3 : BitVec 3)
    (modular : funct3 = 1 ∨ funct3 = 5 →
      Modular env (m.cpu.readReg (creg c 7) + clDoubleOffset c)) :
    Matches env m n ((execQuadrant0 env c (funct3.setWidth 8) n).run m) (Isa.expand0 c funct3) := by
  rw [creg_rs1, clDoubleOffset_eq, ← extend_unsigned _ (by decide)] at modular
  rcases three_bits funct3 with rfl | rfl | rfl | rfl | rfl | rfl | rfl | rfl
  · exact addi4spn_matches c
  · refine matches_same ((full_fld _ _ _ (modular (.inl rfl))).trans ?_)
    rw [extend_unsigned _ (by decide), ← clDoubleOffset_eq, Machine.read, ← creg_rs1, ← creg_rd]
    rfl
  · refine matches_same ((full_lw _ _ _).trans ?_)
    rw [extend_unsigned _ (by decide), ← clWordOffset_eq, Machine.read, ← creg_rs1, ← creg_rd]
    rfl
  · refine matches_same ((full_flw _ _ _).trans ?_)
    rw [extend_unsigned _ (by decide), ← clWordOffset_eq, Machine.read, ← creg_rs1, ← creg_rd]
    rfl
  · exact matches_illegal c _
  · refine matches_same ((full_fsd _ _ _ (modular (.inr rfl))).trans ?_)
    rw [extend_unsigned _ (by decide), ← clDoubleOffset_eq, Machine.read, ← creg_rs1, ← creg_rd]
    rfl
  · refine matches_same ((full_sw _ _ _).trans ?_)
    rw [extend_unsigned _ (by decide), ← clWordOffset_eq, Machine.read, Machine.read,
      ← creg_rs1, ← creg_rd]
    rfl
  · refine matches_same ((full_fsw _ _ _).trans ?_)
    rw [extend_unsigned _ (by decide), ← clWordOffset_eq, Machine.read, ← creg_rs1, ← creg_rd]
    rfl

/-- A write that is skipped where it would change nothing, as in the hints. -/
theorem skipped_write (rd : BitVec 5) (val : U32) {p : Prop} [Decidable p]
    (same : ¬p → m.wrote rd val = m) :
    (if p then (do
        modifyCpu (·.writeReg rd.toFin val)
        return n) else return n : Exec U32).run m = .ok n (m.wrote rd val) := by
  by_cases writes : p
  · rw [if_pos writes]
    rfl
  · rw [if_neg writes, same writes]
    rfl

theorem wrote_of_zero {rd : BitVec 5} (unnamed : rd.toFin = 0) (val : U32) :
    m.wrote rd val = m := by
  rw [Machine.wrote, Cpu.writeReg, if_neg (not_not.mpr unnamed)]

/-- Bit 12 is reserved in most of the arithmetic group. -/
theorem bit12_matches {x : Exec U32} {e? : Option U32} (clear : Matches env m n (x.run m) e?) :
    Matches env m n (Prog.run (if shiftThenMask c 12 1 ≠ 0 then illegal16 c else x) m)
      (if slice c 12 12 = 0 then e? else none) := by
  by_cases zero : slice c 12 12 = 0
  · rw [if_neg (not_not.mpr ((bit12_eq_zero_iff c).mpr zero)), if_pos zero]
    exact clear
  · rw [if_pos (mt (bit12_eq_zero_iff c).mp zero)]
    exact matches_illegal c _

theorem addi_matches : Matches env m n ((execQuadrant1 env c 0 n).run m) (Isa.expand1 c 0) := by
  refine matches_same ((full_addi _ _ _).trans ?_)
  rw [extend_signed _ (show 6 ≤ 12 by decide), execQuadrant1, run_bind, run_getCpu,
    Outcome.andThen_ok]
  dsimp only
  rw [signExt6_eq, regField16_rd]
  refine (skipped_write (Isa.rdFull c) _ ?_).symm
  intro skipped
  by_cases unnamed : (Isa.rdFull c).toFin = 0
  · exact wrote_of_zero unnamed _
  · have nothing : (Isa.immCI c).signExtend 32 = 0#32 := by
      by_contra some
      exact skipped ⟨unnamed, some⟩
    rw [nothing, BitVec.add_zero, wrote_read]

theorem luiGroup_matches : Matches env m n ((execLuiGroup c n).run m) (Isa.expandLui c) := by
  rw [execLuiGroup, run_bind, run_getCpu, Outcome.andThen_ok, Isa.expandLui]
  dsimp only
  by_cases stack : Isa.rdFull c = 2
  · have target : regField16 c 7 = 2 := (rd_eq_iff c 2).mpr stack
    rw [if_pos target, if_pos stack]
    by_cases zero : Isa.immSp c = 0
    · rw [if_pos ((addi16spImm_eq_zero_iff c).mpr zero), if_pos zero]
      exact matches_illegal c _
    · rw [if_neg (mt (addi16spImm_eq_zero_iff c).mp zero), if_neg zero,
        @signExtend_of_piece _ 6 _ _ _ (addi16spImm_piece c) rfl (by decide)]
      refine matches_same ((full_addi _ _ _).trans ?_)
      rw [extend_signed _ (by decide)]
      rfl
  · have target : regField16 c 7 ≠ 2 := mt (rd_eq_iff c 2).mp stack
    rw [if_neg target, if_neg stack]
    by_cases named : regField16 c 7 ≠ 0
    · rw [if_pos named]
      by_cases zero : Isa.immCI c = 0
      · rw [if_pos ((imm6_eq_zero_iff c).mpr zero), if_pos zero]
        exact matches_illegal c _
      · rw [if_neg (mt (imm6_eq_zero_iff c).mp zero), if_neg zero, regField16_rd, signExt6_eq]
        refine matches_same ((full_lui _ _).trans ?_)
        rw [extend_upper]
        rfl
    · rw [if_neg named]
      exact matches_illegal c _

theorem two_bits (f : BitVec 2) : f = 0 ∨ f = 1 ∨ f = 2 ∨ f = 3 := by
  decide +revert

theorem aluGroup_matches : Matches env m n ((execAluGroup env c n).run m) (Isa.expandAlu c) := by
  have selector : shiftThenMask c 10 0x3 = (slice c 11 10).setWidth 16 :=
    field_eq c (k := 2) rfl rfl (by decide)
  have operation : shiftThenMask c 5 0x3 = (slice c 6 5).setWidth 16 :=
    field_eq c (k := 2) rfl rfl (by decide)
  have amount : (shiftThenMask c 2 0x1F).toNat = (slice c 6 2).toNat := toNat_field c rfl rfl
  rw [execAluGroup, run_bind, run_getCpu, Outcome.andThen_ok, Isa.expandAlu]
  simp only [rightShift_eq, pure_bind]
  rw [selector, operation, amount, creg_rs1, creg_rd, signExt6_eq]
  generalize slice c 11 10 = kind
  rcases two_bits kind with rfl | rfl | rfl | rfl
  · refine bit12_matches c
      (matches_same ((full_srli _ _ _).trans (skipped_write (Isa.rs1C c) _ ?_).symm))
    intro zero
    rw [not_not.mp zero, BitVec.ushiftRight_zero, wrote_read]
  · refine bit12_matches c
      (matches_same ((full_srai _ _ _).trans (skipped_write (Isa.rs1C c) _ ?_).symm))
    intro zero
    rw [not_not.mp zero, BitVec.sshiftRight_zero, wrote_read]
  · refine matches_same ((full_andi _ _ _).trans ?_)
    rw [extend_signed _ (by decide)]
    rfl
  · refine bit12_matches c ?_
    generalize slice c 6 5 = kind
    rcases two_bits kind with rfl | rfl | rfl | rfl
    · exact matches_same (full_op _ _ _ _ _ (· - ·) fun _ _ => rfl)
    · exact matches_same (full_op _ _ _ _ _ (· ^^^ ·) fun _ _ => rfl)
    · exact matches_same (full_op _ _ _ _ _ (· ||| ·) fun _ _ => rfl)
    · exact matches_same (full_op _ _ _ _ _ (· &&& ·) fun _ _ => rfl)

theorem quadrant1_matches (funct3 : BitVec 3) :
    Matches env m n ((execQuadrant1 env c (funct3.setWidth 8) n).run m) (Isa.expand1 c funct3) := by
  have jump : ((Isa.immCJ c).signExtend 21).signExtend 32 = jumpOffset c := by
    rw [jumpOffset_eq, extend_signed _ (by decide)]
  have branch : ((Isa.immCB c).signExtend 13).signExtend 32 = branchOffset c := by
    rw [branchOffset_eq, extend_signed _ (by decide)]
  have evenJump := even_signExtend (w := 21) (Isa.immCJ c) (by decide) (immCJ_even c)
  have evenBranch := even_signExtend (w := 13) (Isa.immCB c) (by decide) (immCB_even c)
  rcases three_bits funct3 with rfl | rfl | rfl | rfl | rfl | rfl | rfl | rfl
  · exact addi_matches c
  · refine matches_same ((full_jal 1 _ evenJump).trans ?_)
    rw [jump]
    rfl
  · refine matches_same ((full_addi _ 0 _).trans ?_)
    rw [extend_signed _ (by decide), ← signExt6_eq, Machine.wrote, ← regField16_rd]
    change _ = Outcome.ok n { m with cpu := m.cpu.writeReg (regField16 c 7) (signExt6 c) }
    rw [read_zero, BitVec.zero_add]
  · rw [execQuadrant1, run_bind, run_getCpu, Outcome.andThen_ok]
    exact luiGroup_matches c
  · rw [execQuadrant1, run_bind, run_getCpu, Outcome.andThen_ok]
    exact aluGroup_matches c
  · refine matches_same ((full_jal 0 _ evenJump).trans ?_)
    rw [jump]
    rfl
  · refine matches_same ((full_branch _ _ _ _ evenBranch (· == ·) fun _ _ => rfl).trans ?_)
    rw [branch, Machine.read, ← creg_rs1]
    change Outcome.ok (if (m.cpu.readReg (creg c 7) == 0#32) = true then _ else _) m = _
    simp only [beq_iff_eq]
    rfl
  · refine matches_same ((full_branch _ _ _ _ evenBranch (· != ·) fun _ _ => rfl).trans ?_)
    rw [branch, Machine.read, ← creg_rs1]
    change Outcome.ok (if (m.cpu.readReg (creg c 7) != 0#32) = true then _ else _) m = _
    simp only [bne_iff_ne]
    rfl

theorem slli_matches : Matches env m n ((execQuadrant2 env c 0 n).run m) (Isa.expand2 c 0) := by
  have amount : (shiftThenMask c 2 0x1F).toNat = (slice c 6 2).toNat := toNat_field c rfl rfl
  rw [execQuadrant2, run_bind, run_getCpu, Outcome.andThen_ok]
  simp only [shlU32_small env.build (shamt16_lt c), pure_bind]
  rw [amount, regField16_rd]
  refine bit12_matches c
    (matches_same ((full_slli _ _ _).trans (skipped_write (Isa.rdFull c) _ ?_).symm))
  intro skipped
  by_cases unnamed : (Isa.rdFull c).toFin = 0
  · exact wrote_of_zero unnamed _
  · have nothing : (slice c 6 2).toNat = 0 := by
      by_contra some
      exact skipped ⟨unnamed, some⟩
    rw [nothing, BitVec.shiftLeft_zero, wrote_read]

theorem jumpGroup_matches : Matches env m n ((execJumpGroup c n).run m) (Isa.expandJump c) := by
  have bit12 := bit12_eq_zero_iff c
  have rdZero : regField16 c 7 = 0 ↔ Isa.rdFull c = 0 := rd_eq_iff c 0
  have rs2Zero : regField16 c 2 = 0 ↔ Isa.rs2Full c = 0 := rs2_eq_iff c 0
  rw [execJumpGroup, run_bind, run_getCpu, Outcome.andThen_ok, Isa.expandJump]
  dsimp only
  by_cases low : slice c 12 12 = 0
  · by_cases source : Isa.rs2Full c = 0
    · rw [if_pos ⟨bit12.mpr low, rs2Zero.mpr source⟩, if_pos low, if_pos source]
      by_cases unnamed : Isa.rdFull c = 0
      · rw [if_pos (rdZero.mpr unnamed)]
        exact matches_illegal c _
      · rw [if_neg (mt rdZero.mp unnamed), if_neg unnamed, regField16_rd]
        exact matches_same (full_jalr 0 _)
    · rw [if_neg (fun both => source (rs2Zero.mp both.2)),
        if_pos ⟨bit12.mpr low, mt rs2Zero.mp source⟩, if_pos low,
        if_neg source, regField16_rd, regField16_rs2]
      have copied : full env m n (add (Isa.rdFull c) 0 (Isa.rs2Full c)) =
          .ok n (m.wrote (Isa.rdFull c) (m.read (Isa.rs2Full c))) := by
        refine (full_op _ _ _ _ _ (· + ·) fun _ _ => rfl).trans ?_
        rw [read_zero, BitVec.zero_add]
      refine matches_same (copied.trans (skipped_write (Isa.rdFull c) _ ?_).symm)
      intro unnamed
      exact wrote_of_zero (not_not.mp unnamed) _
  · rw [if_neg (fun both => low (bit12.mp both.1)),
      if_neg (fun both => low (bit12.mp both.1)), if_neg low]
    by_cases source : Isa.rs2Full c = 0
    · rw [if_pos source]
      by_cases unnamed : Isa.rdFull c = 0
      · rw [if_pos ⟨rdZero.mpr unnamed, rs2Zero.mpr source⟩, if_pos unnamed]
        exact matches_same full_ebreak
      · rw [if_neg (fun both => unnamed (rdZero.mp both.1)), if_pos (rs2Zero.mpr source),
          if_neg unnamed,
          regField16_rd]
        exact matches_same (full_jalr 1 _)
    · rw [if_neg (fun both => source (rs2Zero.mp both.2)), if_neg (mt rs2Zero.mp source), if_neg source,
        regField16_rd, regField16_rs2]
      refine matches_same ((full_op _ _ _ _ _ (· + ·) fun _ _ => rfl).trans
        (skipped_write (Isa.rdFull c) _ ?_).symm)
      intro unnamed
      exact wrote_of_zero (not_not.mp unnamed) _

theorem lwsp_matches : Matches env m n ((execQuadrant2 env c 2 n).run m) (Isa.expand2 c 2) := by
  change Matches env m n (Prog.run (if regField16 c 7 = 0 then illegal16 c else _) m)
    (if Isa.rdFull c = 0 then none else some (lw (Isa.rdFull c) 2 ((Isa.immLwsp c).setWidth 12)))
  have rdZero : regField16 c 7 = 0 ↔ Isa.rdFull c = 0 := rd_eq_iff c 0
  by_cases unnamed : Isa.rdFull c = 0
  · rw [if_pos (rdZero.mpr unnamed)]
    exact matches_illegal c _
  · rw [if_neg (mt rdZero.mp unnamed), if_neg unnamed]
    refine matches_same ((full_lw _ _ _).trans ?_)
    rw [extend_unsigned _ (by decide), ← ciWordSpOffset_eq, ← regField16_rd]
    rfl

theorem quadrant2_matches (funct3 : BitVec 3)
    (modularLoad : funct3 = 1 → Modular env (m.cpu.readReg 2 + ciDoubleSpOffset c))
    (modularStore : funct3 = 5 → Modular env (m.cpu.readReg 2 + cssDoubleSpOffset c)) :
    Matches env m n ((execQuadrant2 env c (funct3.setWidth 8) n).run m) (Isa.expand2 c funct3) := by
  rw [ciDoubleSpOffset_eq, ← extend_unsigned _ (by decide)] at modularLoad
  rw [cssDoubleSpOffset_eq, ← extend_unsigned _ (by decide)] at modularStore
  rcases three_bits funct3 with rfl | rfl | rfl | rfl | rfl | rfl | rfl | rfl
  · exact slli_matches c
  · refine matches_same ((full_fld _ 2 _ (modularLoad rfl)).trans ?_)
    rw [extend_unsigned _ (by decide), ← ciDoubleSpOffset_eq, ← regField16_rd]
    rfl
  · exact lwsp_matches c
  · refine matches_same ((full_flw _ 2 _).trans ?_)
    rw [extend_unsigned _ (by decide), ← ciWordSpOffset_eq, ← regField16_rd]
    rfl
  · rw [execQuadrant2, run_bind, run_getCpu, Outcome.andThen_ok]
    exact jumpGroup_matches c
  · refine matches_same ((full_fsd _ 2 _ (modularStore rfl)).trans ?_)
    rw [extend_unsigned _ (by decide), ← cssDoubleSpOffset_eq, ← regField16_rs2]
    rfl
  · refine matches_same ((full_sw _ 2 _).trans ?_)
    rw [extend_unsigned _ (by decide), ← cssWordSpOffset_eq, Machine.read, Machine.read,
      ← regField16_rs2]
    rfl
  · refine matches_same ((full_fsw _ 2 _).trans ?_)
    rw [extend_unsigned _ (by decide), ← cssWordSpOffset_eq, ← regField16_rs2]
    rfl

/-- The three quadrants together. -/
theorem quadrant_matches
    (modular : ∀ addr r, (Fetched.half c).doubleLoad? m.cpu = some (addr, r) ∨
      (Fetched.half c).doubleStore? m.cpu = some (addr, r) → Modular env addr) :
    Matches env m n ((execQuadrant env c (DecodedInst16.decode c).op
      (DecodedInst16.decode c).funct3 n).run m)
      (Isa.expand c) := by
  simp only [Fetched.doubleLoad?, Fetched.doubleStore?, decode16_op, decode16_funct3] at modular
  rw [decode16_op, decode16_funct3, Isa.expand]
  generalize slice c 15 13 = funct3 at modular ⊢
  generalize slice c 1 0 = quadrant at modular ⊢
  rcases two_bits quadrant with rfl | rfl | rfl | rfl
  · refine quadrant0_matches c funct3 ?_
    rintro (rfl | rfl)
    · exact modular _ _ (.inl rfl)
    · exact modular _ _ (.inr rfl)
  · exact quadrant1_matches c funct3
  · refine quadrant2_matches c funct3 ?_ ?_
    · rintro rfl
      exact modular _ _ (.inl rfl)
    · rintro rfl
      exact modular _ _ (.inr rfl)
  · exact matches_illegal c _

end Matching

end RiscvRs
