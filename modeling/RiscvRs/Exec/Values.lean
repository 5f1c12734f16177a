import RiscvRs.Exec.Compressed

/-! The values the executors compute. Every shift amount they take is below 32, every divisor they
divide by is not zero and every product fits, so the checked arithmetic never panics. -/

namespace RiscvRs

open Effects Prog

section Shifts

variable (build : Build) {amount : Nat}

theorem shlU32_small (small : amount < 32) (a : U32) :
    build.shlU32 a amount = pure (a <<< amount) := by
  rw [Build.shlU32, if_neg fun large => Nat.not_le_of_lt small large.2, Nat.mod_eq_of_lt small]

theorem shrU32_small (small : amount < 32) (a : U32) :
    build.shrU32 a amount = pure (a >>> amount) := by
  rw [Build.shrU32, if_neg fun large => Nat.not_le_of_lt small large.2, Nat.mod_eq_of_lt small]

theorem shrI32_small (small : amount < 32) (a : U32) :
    build.shrI32 a amount = pure (a.sshiftRight amount) := by
  rw [Build.shrI32, if_neg fun large => Nat.not_le_of_lt small large.2, Nat.mod_eq_of_lt small]

/-- The low five bits of a register. -/
theorem lowFive_lt (src : U32) : (src &&& 0x1F).toNat < 32 := by
  rw [BitVec.toNat_and]
  exact Nat.and_lt_two_pow src.toNat (show (0x1F : U32).toNat < 2 ^ 5 by decide)

/-- The shift amount of `OP_IMM`. -/
theorem shamt_lt (rs2 : Fin 32) : rs2.val &&& 0x1F < 32 :=
  Nat.and_lt_two_pow rs2.val (show 0x1F < 2 ^ 5 by decide)

/-- The shift amount of a compressed instruction. -/
theorem shamt16_lt (inst : U16) : (shiftThenMask inst 2 0x1F).toNat < 32 :=
  Nat.lt_succ_of_le (mask_lt _ 0x1F)

end Shifts

section Divisions

variable {src2 : U32}

/-- The test for a zero divisor stands before every division. -/
theorem guarded_eq {x : Exec U32} {a b : U32} (same : src2 ≠ 0 → x = pure b) :
    (if src2 = 0 then pure a else x) = pure (if src2 = 0 then a else b) := by
  split
  · rfl
  · next nonzero => exact same nonzero

theorem wrappingDiv_nonzero (src1 : U32) (nonzero : src2 ≠ 0) :
    wrappingDiv src1 src2 = pure (src1.sdiv src2) :=
  if_neg nonzero

theorem wrappingRem_nonzero (src1 : U32) (nonzero : src2 ≠ 0) :
    wrappingRem src1 src2 = pure (src1.srem src2) :=
  if_neg nonzero

theorem remU32_nonzero (src1 : U32) (nonzero : src2 ≠ 0) : remU32 src1 src2 = pure (src1 % src2) :=
  if_neg nonzero

theorem checkedDiv_getD (src1 a : U32) :
    (checkedDiv src1 src2).getD a = if src2 = 0 then a else src1 / src2 := by
  rw [checkedDiv]
  split <;> rfl

end Divisions

section Products

variable (build : Build)

theorem mulI64_of_bounds {a b : U64} (low : -2 ^ 63 ≤ a.toInt * b.toInt)
    (high : a.toInt * b.toInt < 2 ^ 63) :
    build.mulI64 a b = pure (a * b) := by
  rw [Build.mulI64, if_neg]
  rintro ⟨-, outside⟩
  exact outside ⟨low, high⟩

/-- A 32-bit signed factor, as a 64-bit one. -/
theorem toInt_signExtend_bounds (a : U32) :
    -2 ^ 31 ≤ (a.signExtend 64).toInt ∧ (a.signExtend 64).toInt < 2 ^ 31 := by
  rw [BitVec.toInt_signExtend_of_le (by decide)]
  exact ⟨BitVec.le_toInt a, BitVec.toInt_lt⟩

theorem toInt_setWidth_bounds (a : U32) :
    0 ≤ (a.setWidth 64).toInt ∧ (a.setWidth 64).toInt < 2 ^ 32 := by
  have bound := a.isLt
  have same : (a.setWidth 64).toInt = a.toNat := by
    rw [BitVec.toInt_eq_toNat_of_lt, BitVec.toNat_setWidth_of_le (by decide)]
    rw [BitVec.toNat_setWidth_of_le (by decide)]
    omega
  rw [same]
  omega

theorem mulI64_signed (a b : U32) :
    build.mulI64 (a.signExtend 64) (b.signExtend 64) = pure
      (a.signExtend 64 * b.signExtend 64) := by
  obtain ⟨lowA, highA⟩ := toInt_signExtend_bounds a
  obtain ⟨lowB, highB⟩ := toInt_signExtend_bounds b
  apply mulI64_of_bounds
  · nlinarith
  · nlinarith

theorem mulI64_mixed (a b : U32) :
    build.mulI64 (a.signExtend 64) (b.setWidth 64) = pure (a.signExtend 64 * b.setWidth 64) := by
  obtain ⟨lowA, highA⟩ := toInt_signExtend_bounds a
  obtain ⟨lowB, highB⟩ := toInt_setWidth_bounds b
  apply mulI64_of_bounds
  · nlinarith
  · nlinarith

theorem mulU64_unsigned (a b : U32) :
    build.mulU64 (a.setWidth 64) (b.setWidth 64) = pure (a.setWidth 64 * b.setWidth 64) := by
  have boundA := a.isLt
  have boundB := b.isLt
  rw [Build.mulU64, if_neg]
  rintro ⟨-, exceeds⟩
  rw [BitVec.toNat_setWidth_of_le (by decide), BitVec.toNat_setWidth_of_le (by decide)] at exceeds
  have product := Nat.mul_lt_mul'' boundA boundB
  omega

end Products

section Values

/-- The results of `OP_IMM`. -/
def opImmValue (funct3 funct7 : U8) (src1 imm : U32) (shamt : Nat) : Option U32 :=
  match funct3 with
  | 0 => some (src1 + imm)
  | 2 => some (flag (src1.slt imm))
  | 3 => some (flag (src1.ult imm))
  | 4 => some (src1 ^^^ imm)
  | 6 => some (src1 ||| imm)
  | 7 => some (src1 &&& imm)
  | 1 => some (src1 <<< shamt)
  | 5 => some (if funct7 = 0x20 then src1.sshiftRight shamt else src1 >>> shamt)
  | _ => none

/-- The results of `OP_OP` outside the M extension. -/
def opValue (funct7 funct3 : U8) (src1 src2 : U32) : Option U32 :=
  match funct7, funct3 with
  | 0x00, 0 => some (src1 + src2)
  | 0x20, 0 => some (src1 - src2)
  | 0x00, 1 => some (src1 <<< (src2 &&& 0x1F).toNat)
  | 0x00, 2 => some (flag (src1.slt src2))
  | 0x00, 3 => some (flag (src1.ult src2))
  | 0x00, 4 => some (src1 ^^^ src2)
  | 0x00, 5 => some (src1 >>> (src2 &&& 0x1F).toNat)
  | 0x20, 5 => some (src1.sshiftRight (src2 &&& 0x1F).toNat)
  | 0x00, 6 => some (src1 ||| src2)
  | 0x00, 7 => some (src1 &&& src2)
  | _, _ => none

/-- The multiplications and divisions, as values. -/
def mulDivValue (funct3 : U8) (src1 src2 : U32) : Option U32 :=
  match funct3 with
  | 0 => some (src1 * src2)
  | 1 =>
    some
      (((src1.signExtend 64 * src2.signExtend 64 : U64).sshiftRight 32 &&& 0xFFFFFFFF).setWidth 32)
  | 2 =>
    some (((src1.signExtend 64 * src2.setWidth 64 : U64).sshiftRight 32 &&& 0xFFFFFFFF).setWidth 32)
  | 3 => some (((src1.setWidth 64 * src2.setWidth 64 : U64) >>> 32 &&& 0xFFFFFFFF).setWidth 32)
  | 4 => some (if src2 = 0 then 0xFFFFFFFF else src1.sdiv src2)
  | 5 => some (if src2 = 0 then 0xFFFFFFFF else src1 / src2)
  | 6 => some (if src2 = 0 then src1 else src1.srem src2)
  | 7 => some (if src2 = 0 then src1 else src1 % src2)
  | _ => none

variable (build : Build) (raw : U32)

/-- Both shifts of `OP_IMM` have an amount in range. -/
theorem opImmResult_eq {shamt : Nat} (small : shamt < 32) (funct3 funct7 : U8) (src1 imm : U32) :
    opImmResult build raw funct3 funct7 src1 imm shamt = orIllegal raw
      (opImmValue funct3 funct7 src1 imm shamt) := by
  unfold opImmResult opImmValue
  split
  · rfl
  · rfl
  · rfl
  · rfl
  · rfl
  · rfl
  · exact shlU32_small build small src1
  · by_cases arithmetic : funct7 = 0x20
    · rw [if_pos arithmetic, if_pos arithmetic]
      exact shrI32_small build small src1
    · rw [if_neg arithmetic, if_neg arithmetic]
      exact shrU32_small build small src1
  · simp only [orIllegal, *]

/-- The amount as `OP_IMM` takes it from the word. -/
theorem opImmResult_shamt (funct3 funct7 : U8) (src1 imm : U32) (rs2 : Fin 32) :
    opImmResult build raw funct3 funct7 src1 imm (rs2.val &&& 0x1F) =
      orIllegal raw (opImmValue funct3 funct7 src1 imm (rs2.val &&& 0x1F)) :=
  opImmResult_eq build raw (shamt_lt rs2) funct3 funct7 src1 imm

theorem opResult_eq (funct7 funct3 : U8) (src1 src2 : U32) :
    opResult build raw funct7 funct3 src1 src2 = orIllegal raw
      (opValue funct7 funct3 src1 src2) := by
  have small := lowFive_lt src2
  unfold opResult opValue
  split
  · rfl
  · rfl
  · exact shlU32_small build small src1
  · rfl
  · rfl
  · rfl
  · exact shrU32_small build small src1
  · exact shrI32_small build small src1
  · rfl
  · rfl
  · simp only [orIllegal, *]

/-- The 64-bit products of 32-bit factors fit, and no division is by zero. -/
theorem mulDivResult_eq (funct3 : U8) (src1 src2 : U32) :
    mulDivResult build raw funct3 src1 src2 = orIllegal raw (mulDivValue funct3 src1 src2) := by
  unfold mulDivResult mulDivValue
  split
  · rfl
  · rw [mulI64_signed]
    rfl
  · rw [mulI64_mixed]
    rfl
  · rw [mulU64_unsigned]
    rfl
  · exact guarded_eq (wrappingDiv_nonzero src1)
  · exact congrArg pure (checkedDiv_getD src1 0xFFFFFFFF)
  · exact guarded_eq (wrappingRem_nonzero src1)
  · exact guarded_eq (remU32_nonzero src1)
  · simp only [orIllegal, *]

/-- The right shifts of the compressed group. -/
theorem rightShift_eq (inst : U16) (logical : Prop) [Decidable logical] (src : U32) :
    (if logical then build.shrU32 src (shiftThenMask inst 2 0x1F).toNat
      else build.shrI32 src (shiftThenMask inst 2 0x1F).toNat) =
      pure (if logical then src >>> (shiftThenMask inst 2 0x1F).toNat
        else src.sshiftRight (shiftThenMask inst 2 0x1F).toNat) := by
  split
  · exact shrU32_small build (shamt16_lt inst) src
  · exact shrI32_small build (shamt16_lt inst) src

end Values

end RiscvRs
