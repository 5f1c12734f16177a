import RiscvRs.Isa.Encoding
import RiscvRs.Machine.Fields

/-! `DecodedInst32` on encoded words: every field and immediate comes back. -/

namespace RiscvRs

section Register

variable (funct7 : BitVec 7) (rs2 rs1 : BitVec 5) (funct3 : BitVec 3) (rd : BitVec 5)
  (opcode : BitVec 7)

theorem decode_encR {inst : DecodedInst32}
    (decoded : DecodedInst32.decode (Isa.encR funct7 rs2 rs1 funct3 rd opcode) = inst) :
    inst.opcode = opcode.setWidth 8 ∧ inst.rd = rd.toFin ∧ inst.funct3 = funct3.setWidth 8 ∧
    inst.rs1 = rs1.toFin ∧ inst.rs2 = rs2.toFin ∧ inst.funct7 = funct7.setWidth 8 := by
  obtain ⟨op, d, f3, s1, s2, f7⟩ := Isa.fields_encR funct7 rs2 rs1 funct3 rd opcode
  rw [← decoded, decode_opcode, decode_rd, decode_funct3, decode_rs1, decode_rs2, decode_funct7, op,
    d, f3, s1, s2, f7]
  simp only [BitVec.ofNat_toNat, and_self]

theorem decode_encI (imm : BitVec 12) {inst : DecodedInst32}
    (decoded : DecodedInst32.decode (Isa.encI rs1 funct3 rd opcode imm) = inst) :
    inst.opcode = opcode.setWidth 8 ∧ inst.rd = rd.toFin ∧ inst.funct3 = funct3.setWidth 8 ∧
    inst.rs1 = rs1.toFin ∧ inst.iImm = imm.signExtend 32 := by
  have value : inst.iImm = imm.signExtend 32 := by
    rw [← decoded, decode_iImm, Isa.immI_encI]
    rfl
  rw [Isa.encI_eq] at decoded
  obtain ⟨op, d, f3, s1, -, -⟩ := decode_encR _ _ _ _ _ _ decoded
  exact ⟨op, d, f3, s1, value⟩

theorem decode_encS (imm : BitVec 12) {inst : DecodedInst32}
    (decoded : DecodedInst32.decode (Isa.encS rs2 rs1 funct3 opcode imm) = inst) :
    inst.opcode = opcode.setWidth 8 ∧ inst.funct3 = funct3.setWidth 8 ∧
    inst.rs1 = rs1.toFin ∧ inst.rs2 = rs2.toFin ∧ inst.sImm = imm.signExtend 32 := by
  have value : inst.sImm = imm.signExtend 32 := by
    rw [← decoded, decode_sImm, Isa.immS_encS]
    rfl
  rw [Isa.encS_eq] at decoded
  obtain ⟨op, -, f3, s1, s2, -⟩ := decode_encR _ _ _ _ _ _ decoded
  exact ⟨op, f3, s1, s2, value⟩

theorem decode_encB (imm : BitVec 13) (even : imm.toNat % 2 = 0) {inst : DecodedInst32}
    (decoded : DecodedInst32.decode (Isa.encB rs2 rs1 funct3 opcode imm) = inst) :
    inst.opcode = opcode.setWidth 8 ∧ inst.funct3 = funct3.setWidth 8 ∧
    inst.rs1 = rs1.toFin ∧ inst.rs2 = rs2.toFin ∧ inst.bImm = imm.signExtend 32 := by
  have value : inst.bImm = imm.signExtend 32 := by
    rw [← decoded, decode_bImm, Isa.immB_encB _ _ _ _ _ even]
    rfl
  rw [Isa.encB_eq] at decoded
  obtain ⟨op, -, f3, s1, s2, -⟩ := decode_encR _ _ _ _ _ _ decoded
  exact ⟨op, f3, s1, s2, value⟩

theorem decode_encU (imm : BitVec 20) {inst : DecodedInst32}
    (decoded : DecodedInst32.decode (Isa.encU rd opcode imm) = inst) :
    inst.opcode = opcode.setWidth 8 ∧ inst.rd = rd.toFin ∧ inst.uImm = imm ++ 0#12 := by
  obtain ⟨op, d, upper⟩ := Isa.fields_encU rd opcode imm
  rw [← decoded, decode_opcode, decode_rd, decode_uImm, op, d, Isa.immU, upper,
    BitVec.ofInt_natCast]
  refine ⟨BitVec.ofNat_toNat 8 opcode, rfl, ?_⟩
  apply BitVec.eq_of_toNat_eq
  rw [Bytes.toNat_append_eq, BitVec.toNat_ofNat]
  have bound := imm.isLt
  simp only [BitVec.toNat_ofNat]
  omega

theorem decode_encJ (imm : BitVec 21) (even : imm.toNat % 2 = 0) {inst : DecodedInst32}
    (decoded : DecodedInst32.decode (Isa.encJ rd opcode imm) = inst) :
    inst.opcode = opcode.setWidth 8 ∧ inst.rd = rd.toFin ∧ inst.jImm = imm.signExtend 32 := by
  have value : inst.jImm = imm.signExtend 32 := by
    rw [← decoded, decode_jImm, Isa.immJ_encJ _ _ _ even]
    rfl
  rw [Isa.encJ_eq] at decoded
  obtain ⟨op, d, -⟩ := decode_encU _ _ _ decoded
  exact ⟨op, d, value⟩

end Register

end RiscvRs
