import RiscvRs.Isa.Rv32c
import RiscvRs.Isa.Words

/-! Field by field, what an encoded word decodes to. -/

namespace Isa

open Bytes

section Stretches

theorem toNat_extractLsb {w : Nat} (x : BitVec w) (hi lo : Nat) :
    (x.extractLsb hi lo).toNat = bits x.toNat hi lo := by
  rw [BitVec.extractLsb_toNat, Nat.shiftRight_eq_div_pow, bits]

theorem bits_lt (word hi lo : Nat) : bits word hi lo < 2 ^ (hi - lo + 1) :=
  Nat.mod_lt _ (Nat.two_pow_pos _)

/-- A stretch of bits cut in two. -/
theorem bits_split (word : Nat) {hi mid lo : Nat} (below : lo ≤ mid) (above : mid < hi) :
    bits word hi lo = bits word hi (mid + 1) * 2 ^ (mid - lo + 1) + bits word mid lo := by
  have width : hi - lo + 1 = (mid - lo + 1) + (hi - (mid + 1) + 1) := by omega
  have start : mid + 1 = lo + (mid - lo + 1) := by omega
  simp only [bits]
  rw [width, Nat.pow_add, Nat.mod_mul, Nat.div_div_eq_div_mul, ← Nat.pow_add, ← start, Nat.mul_comm,
    Nat.add_comm]

/-- All bits of a word. -/
theorem bits_all {hi : Nat} (x : BitVec (hi + 1)) : bits x.toNat hi 0 = x.toNat := by
  rw [bits, Nat.pow_zero, Nat.div_one, Nat.sub_zero, Nat.mod_eq_of_lt x.isLt]

/-- Two-digit numbers agree digit by digit. -/
theorem digits_inj {k a a' b b' : Nat} (same : a * 2 ^ k + b = a' * 2 ^ k + b') (low : b < 2 ^ k)
    (low' : b' < 2 ^ k) : a = a' ∧ b = b' := by
  have digits : b = b' := by
    have reduced := congrArg (· % 2 ^ k) same
    simpa [Nat.mul_add_mod', Nat.mod_eq_of_lt low, Nat.mod_eq_of_lt low'] using reduced
  subst digits
  exact ⟨Nat.eq_of_mul_eq_mul_right (Nat.two_pow_pos k) (Nat.add_right_cancel same), rfl⟩

theorem reg_eq {word lo : Nat} {r : BitVec 5} (value : bits word (lo + 4) lo = r.toNat) :
    reg word lo = r.toFin :=
  Fin.ext value

end Stretches

section Register

variable (funct7 : BitVec 7) (rs2 rs1 : BitVec 5) (funct3 : BitVec 3) (rd : BitVec 5)
  (opcode : BitVec 7)

/-- The six fields of the register format, which the I, S and B formats share. -/
theorem fields_encR :
    Isa.opcode (encR funct7 rs2 rs1 funct3 rd opcode).toNat = opcode.toNat ∧
    Isa.rd (encR funct7 rs2 rs1 funct3 rd opcode).toNat = rd.toFin ∧
    Isa.funct3 (encR funct7 rs2 rs1 funct3 rd opcode).toNat = funct3.toNat ∧
    Isa.rs1 (encR funct7 rs2 rs1 funct3 rd opcode).toNat = rs1.toFin ∧
    Isa.rs2 (encR funct7 rs2 rs1 funct3 rd opcode).toNat = rs2.toFin ∧
    Isa.funct7 (encR funct7 rs2 rs1 funct3 rd opcode).toNat = funct7.toNat := by
  have opBound := opcode.isLt
  have rdBound := rd.isLt
  have f3Bound := funct3.isLt
  have rs1Bound := rs1.isLt
  have rs2Bound := rs2.isLt
  have f7Bound := funct7.isLt
  simp only [encR, toNat_append_eq]
  refine ⟨?_, reg_eq ?_, ?_, reg_eq ?_, reg_eq ?_, ?_⟩
  · rw [Isa.opcode, bits]
    omega
  · rw [bits]
    omega
  · rw [Isa.funct3, bits]
    omega
  · rw [bits]
    omega
  · rw [bits]
    omega
  · rw [Isa.funct7, bits]
    omega

theorem encI_eq (imm : BitVec 12) :
    encI rs1 funct3 rd opcode imm = encR (imm.extractLsb 11 5)
      (imm.extractLsb 4 0) rs1 funct3 rd opcode := by
  have joined : (imm.extractLsb 11 5 ++ imm.extractLsb 4 0 : BitVec 12) = imm := by
    apply BitVec.eq_of_toNat_eq
    rw [toNat_append_eq, toNat_extractLsb, toNat_extractLsb, bits, bits]
    omega
  rw [encI, encR, joined]

theorem encS_eq (imm : BitVec 12) :
    encS rs2 rs1 funct3 opcode imm = encR (imm.extractLsb 11 5) rs2 rs1 funct3
      (imm.extractLsb 4 0) opcode :=
  rfl

theorem encB_eq (imm : BitVec 13) :
    encB rs2 rs1 funct3 opcode imm =
      encR (imm.extractLsb 12 12 ++ imm.extractLsb 10 5) rs2 rs1 funct3
        (imm.extractLsb 4 1 ++ imm.extractLsb 11 11)
        opcode := by
  apply BitVec.eq_of_toNat_eq
  simp only [encB, encR, toNat_append_eq]
  omega

theorem immI_encI (imm : BitVec 12) : immI (encI rs1 funct3 rd opcode imm).toNat = imm.toInt := by
  have value : bits (encI rs1 funct3 rd opcode imm).toNat 31 20 = imm.toNat := by
    have opBound := opcode.isLt
    have rdBound := rd.isLt
    have f3Bound := funct3.isLt
    have rs1Bound := rs1.isLt
    have bound := imm.isLt
    simp only [encI, toNat_append_eq, bits]
    omega
  rw [immI, value, signed_toNat imm (by decide)]

/-- The immediate of the S format from its two parts. -/
theorem immS_encS (imm : BitVec 12) : immS (encS rs2 rs1 funct3 opcode imm).toNat = imm.toInt := by
  have fields := fields_encR (imm.extractLsb 11 5) rs2 rs1 funct3 (imm.extractLsb 4 0) opcode
  rw [← encS_eq] at fields
  have upper : bits (encS rs2 rs1 funct3 opcode imm).toNat 31 25 = bits imm.toNat 11 5 :=
    fields.2.2.2.2.2.trans (toNat_extractLsb imm 11 5)
  have lower : bits (encS rs2 rs1 funct3 opcode imm).toNat 11 7 = bits imm.toNat 4 0 :=
    (congrArg Fin.val fields.2.1).trans (toNat_extractLsb imm 4 0)
  have value : bits imm.toNat 11 5 * 2 ^ 5 + bits imm.toNat 4 0 = imm.toNat :=
    (bits_split imm.toNat (by decide) (by decide)).symm.trans (bits_all imm)
  rw [immS, upper, lower, value, signed_toNat imm (by decide)]

/-- Bit 0 of a branch offset is not encoded. -/
theorem immB_encB (imm : BitVec 13) (even : imm.toNat % 2 = 0) :
    immB (encB rs2 rs1 funct3 opcode imm).toNat = imm.toInt := by
  have fields := fields_encR (imm.extractLsb 12 12 ++ imm.extractLsb 10 5) rs2 rs1 funct3
    (imm.extractLsb 4 1 ++ imm.extractLsb 11 11) opcode
  rw [← encB_eq] at fields
  generalize (encB rs2 rs1 funct3 opcode imm).toNat = word at fields
  have upper : bits word 31 25 = bits imm.toNat 12 12 * 2 ^ 6 + bits imm.toNat 10 5 := by
    rw [← toNat_extractLsb, ← toNat_extractLsb, ← toNat_append_eq]
    exact fields.2.2.2.2.2
  have lower : bits word 11 7 = bits imm.toNat 4 1 * 2 ^ 1 + bits imm.toNat 11 11 := by
    rw [← toNat_extractLsb, ← toNat_extractLsb, ← toNat_append_eq]
    exact congrArg Fin.val fields.2.1
  have upperParts : bits word 31 25 = bits word 31 31 * 2 ^ 6 + bits word 30 25 :=
    bits_split word (by decide) (by decide)
  have lowerParts : bits word 11 7 = bits word 11 8 * 2 ^ 1 + bits word 7 7 :=
    bits_split word (by decide) (by decide)
  obtain ⟨bit12, bits10⟩ :=
    digits_inj (upperParts.symm.trans upper) (bits_lt word 30 25) (bits_lt imm.toNat 10 5)
  obtain ⟨bits4, bit11⟩ :=
    digits_inj (lowerParts.symm.trans lower) (bits_lt word 7 7) (bits_lt imm.toNat 11 11)
  have whole : bits imm.toNat 12 12 * 2 ^ 12 + bits imm.toNat 11 11 * 2 ^ 11 +
    bits imm.toNat 10 5 * 2 ^ 5 +
      bits imm.toNat 4 1 * 2 = imm.toNat := by
    have bound := imm.isLt
    simp only [bits]
    omega
  rw [immB, bit12, bits10, bits4, bit11, whole, signed_toNat imm (by decide)]

end Register

section Upper

variable (rd : BitVec 5) (opcode : BitVec 7)

theorem fields_encU (imm : BitVec 20) :
    Isa.opcode (encU rd opcode imm).toNat = opcode.toNat ∧
      Isa.rd (encU rd opcode imm).toNat = rd.toFin ∧
    bits (encU rd opcode imm).toNat 31 12 = imm.toNat := by
  have opBound := opcode.isLt
  have rdBound := rd.isLt
  have bound := imm.isLt
  simp only [encU, toNat_append_eq]
  refine ⟨?_, reg_eq ?_, ?_⟩
  · rw [Isa.opcode, bits]
    omega
  · rw [bits]
    omega
  · rw [bits]
    omega

theorem encJ_eq (imm : BitVec 21) :
    encJ rd opcode imm =
      encU rd opcode (imm.extractLsb 20 20 ++ imm.extractLsb 10 1 ++ imm.extractLsb 11 11 ++
        imm.extractLsb 19 12) :=
  rfl

/-- Bit 0 of a jump offset is not encoded. -/
theorem immJ_encJ (imm : BitVec 21) (even : imm.toNat % 2 = 0) :
    immJ (encJ rd opcode imm).toNat = imm.toInt := by
  have upper := (fields_encU rd opcode
    (imm.extractLsb 20 20 ++ imm.extractLsb 10 1 ++ imm.extractLsb 11 11 ++
      imm.extractLsb 19 12)).2.2
  rw [← encJ_eq] at upper
  simp only [toNat_append_eq, toNat_extractLsb] at upper
  generalize (encJ rd opcode imm).toNat = word at upper
  have tail : bits word 31 12 = bits word 31 20 * 2 ^ 8 + bits word 19 12 :=
    bits_split word (by decide) (by decide)
  have middle : bits word 31 20 = bits word 31 21 * 2 ^ 1 + bits word 20 20 :=
    bits_split word (by decide) (by decide)
  have head : bits word 31 21 = bits word 31 31 * 2 ^ 10 + bits word 30 21 :=
    bits_split word (by decide) (by decide)
  obtain ⟨rest, bits19⟩ :=
    digits_inj (tail.symm.trans upper) (bits_lt word 19 12) (bits_lt imm.toNat 19 12)
  obtain ⟨rest, bit11⟩ :=
    digits_inj (middle.symm.trans rest) (bits_lt word 20 20) (bits_lt imm.toNat 11 11)
  obtain ⟨bit20, bits10⟩ :=
    digits_inj (head.symm.trans rest) (bits_lt word 30 21) (bits_lt imm.toNat 10 1)
  have whole : bits imm.toNat 20 20 * 2 ^ 20 + bits imm.toNat 19 12 * 2 ^ 12 +
    bits imm.toNat 11 11 * 2 ^ 11 +
      bits imm.toNat 10 1 * 2 = imm.toNat := by
    have bound := imm.isLt
    simp only [bits]
    omega
  rw [immJ, bit20, bits19, bit11, bits10, whole, signed_toNat imm (by decide)]

end Upper

end Isa
