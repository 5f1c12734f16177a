import RiscvRs.Exec.Decoding

/-! The M extension against integer arithmetic. -/

namespace RiscvRs

open Effects Prog

/-- Division that rounds toward zero: the remainder is smaller than the divisor and has
the sign of the dividend. -/
structure Truncated (a b q r : Int) : Prop where
  split : a = b * q + r
  small : |r| < |b|
  below : 0 ≤ a → 0 ≤ r
  above : a ≤ 0 → r ≤ 0

theorem truncated_tdiv {a b : Int} (divides : b ≠ 0) : Truncated a b (a.tdiv b) (a.tmod b) where
  split := (Int.mul_tdiv_add_tmod a b).symm
  small := by
    rw [Int.abs_eq_natAbs, Int.abs_eq_natAbs, Int.natAbs_tmod]
    exact_mod_cast Nat.mod_lt _ (Int.natAbs_pos.mpr divides)
  below nonneg := Int.tmod_nonneg b nonneg
  above nonpos := by
    have mirrored := Int.tmod_nonneg b (neg_nonneg.mpr nonpos)
    rw [Int.neg_tmod] at mirrored
    exact neg_nonneg.mp mirrored

/-- Division of naturals, as integers. -/
theorem truncated_nat (a : Nat) {b : Nat} (divides : b ≠ 0) :
    Truncated a b (a / b : Nat) (a % b : Nat) where
  split := by exact_mod_cast (Nat.div_add_mod a b).symm
  small := by
    rw [Nat.abs_cast, Nat.abs_cast]
    exact_mod_cast Nat.mod_lt a (Nat.pos_of_ne_zero divides)
  below _ := Int.natCast_nonneg _
  above nonpos := by
    have zero : a = 0 := by omega
    simp [zero]

/-- What the eight instructions mean, as integers: MUL, MULH, MULHSU, MULHU, DIV, DIVU,
REM and REMU. -/
def MulDivExact (funct3 : U8) (a b val : U32) : Prop :=
  match funct3 with
  | 0 => val.toNat = a.toNat * b.toNat % 2 ^ 32
  | 1 => val.toInt = a.toInt * b.toInt / 2 ^ 32
  | 2 => val.toInt = a.toInt * b.toNat / 2 ^ 32
  | 3 => val.toNat = a.toNat * b.toNat / 2 ^ 32
  | 4 =>
    (b = 0 → val = 0xFFFFFFFF) ∧ (a.toInt = -2 ^ 31 → b.toInt = -1 → val.toInt = -2 ^ 31) ∧
      (b ≠ 0 → ¬(a.toInt = -2 ^ 31 ∧ b.toInt = -1) → ∃ r, Truncated a.toInt b.toInt val.toInt r)
  | 5 => (b = 0 → val = 0xFFFFFFFF) ∧ (b ≠ 0 → ∃ r, Truncated a.toNat b.toNat val.toNat r)
  | 6 =>
    (b = 0 → val = a) ∧ (a.toInt = -2 ^ 31 → b.toInt = -1 → val = 0) ∧
      (b ≠ 0 → ∃ q, Truncated a.toInt b.toInt q val.toInt)
  | 7 => (b = 0 → val = a) ∧ (b ≠ 0 → ∃ q, Truncated a.toNat b.toNat q val.toNat)
  | _ => False

/-- No 64-bit product of two operands overflows. -/
structure ProductsFit (a b : U32) : Prop where
  signed : -2 ^ 63 ≤ a.toInt * b.toInt ∧ a.toInt * b.toInt < 2 ^ 63
  mixed : -2 ^ 63 ≤ a.toInt * b.toNat ∧ a.toInt * b.toNat < 2 ^ 63
  unsigned : a.toNat * b.toNat < 2 ^ 64

section Products

variable (a b : U32)

theorem productsFit : ProductsFit a b := by
  have lowA : -2 ^ 31 ≤ a.toInt := BitVec.le_toInt a
  have highA : a.toInt < 2 ^ 31 := BitVec.toInt_lt
  have lowB : -2 ^ 31 ≤ b.toInt := BitVec.le_toInt b
  have highB : b.toInt < 2 ^ 31 := BitVec.toInt_lt
  have boundA := a.isLt
  have boundB := b.isLt
  refine ⟨⟨?_, ?_⟩, ⟨?_, ?_⟩, ?_⟩
  · nlinarith
  · nlinarith
  · nlinarith
  · nlinarith
  · have product := Nat.mul_lt_mul'' boundA boundB
    omega

theorem toInt_setWidth_64 : (a.setWidth 64).toInt = a.toNat := by
  have bound := a.isLt
  have same : (a.setWidth 64).toNat = a.toNat := BitVec.toNat_setWidth_of_le (by decide)
  rw [BitVec.toInt_eq_toNat_of_lt (by omega), same]

variable {a b}

/-- The upper word of a signed product that fits. -/
theorem toInt_upper_word {x y : U64} (low : -2 ^ 63 ≤ x.toInt * y.toInt)
    (high : x.toInt * y.toInt < 2 ^ 63) :
    (((x * y).sshiftRight 32 &&& 0xFFFFFFFF).setWidth 32).toInt = x.toInt * y.toInt / 2 ^ 32 := by
  have product : (x * y).toInt = x.toInt * y.toInt := by
    rw [BitVec.toInt_mul, Int.bmod_eq_of_le (by omega) (by omega)]
  have shifted : ((x * y).sshiftRight 32).toInt = x.toInt * y.toInt / 2 ^ 32 := by
    rw [BitVec.toInt_sshiftRight, product, Int.shiftRight_eq_div_pow]
    norm_num
  have cut (z : U64) : z.setWidth 32 = BitVec.ofInt 32 z.toInt := by
    rw [← BitVec.signExtend_eq_setWidth_of_le z (by decide)]
    rfl
  rw [setWidth_and_ones _ rfl, cut, shifted, BitVec.toInt_ofInt,
    Int.bmod_eq_of_le (by omega) (by omega)]

/-- The upper word of an unsigned product that fits. -/
theorem toNat_upper_word {x y : U64} (fits : x.toNat * y.toNat < 2 ^ 64) :
    (((x * y) >>> 32 &&& 0xFFFFFFFF).setWidth 32).toNat = x.toNat * y.toNat / 2 ^ 32 := by
  rw [setWidth_and_ones _ rfl, BitVec.toNat_setWidth, BitVec.toNat_ushiftRight,
    Nat.shiftRight_eq_div_pow,
    BitVec.toNat_mul, Nat.mod_eq_of_lt fits, Nat.mod_eq_of_lt (by omega)]

end Products

section Divisions

variable {a b : U32}

theorem toInt_ne_zero (divides : b ≠ 0) : b.toInt ≠ 0 :=
  fun zero => divides (BitVec.eq_of_toInt_eq zero)

theorem toNat_ne_zero (divides : b ≠ 0) : b.toNat ≠ 0 :=
  fun zero => divides (BitVec.eq_of_toNat_eq zero)

/-- The one quotient that does not fit wraps to the dividend. -/
theorem sdiv_overflow (smallest : a.toInt = -2 ^ 31) (minusOne : b.toInt = -1) :
    a.sdiv b = a ∧ a.srem b = 0 := by
  obtain rfl : a = BitVec.intMin 32 := BitVec.eq_of_toInt_eq smallest
  obtain rfl : b = -1 := BitVec.eq_of_toInt_eq minusOne
  constructor <;> rfl

theorem sdiv_truncated (divides : b ≠ 0) (fits : ¬(a.toInt = -2 ^ 31 ∧ b.toInt = -1)) :
    Truncated a.toInt b.toInt (a.sdiv b).toInt (a.srem b).toInt := by
  have apart : a ≠ BitVec.intMin 32 ∨ b ≠ -1#32 := by
    by_contra both
    push Not at both
    obtain ⟨rfl, rfl⟩ := both
    exact fits ⟨rfl, rfl⟩
  rw [BitVec.toInt_sdiv_of_ne_or_ne a b apart, BitVec.toInt_srem]
  exact truncated_tdiv (toInt_ne_zero divides)

theorem srem_truncated (divides : b ≠ 0) : ∃ q, Truncated a.toInt b.toInt q (a.srem b).toInt := by
  rw [BitVec.toInt_srem]
  exact ⟨_, truncated_tdiv (toInt_ne_zero divides)⟩

theorem udiv_truncated (divides : b ≠ 0) :
    Truncated a.toNat b.toNat (a / b).toNat (a % b).toNat := by
  rw [BitVec.toNat_udiv, BitVec.toNat_umod]
  exact truncated_nat _ (toNat_ne_zero divides)

end Divisions

/-- Every one of the eight values is exact. -/
theorem mulDivValue_exact {funct3 : U8} (known : funct3.toNat < 8) (a b : U32) :
    ∃ val, mulDivValue funct3 a b = some val ∧ MulDivExact funct3 a b val := by
  have fit := productsFit a b
  have extendA : (a.signExtend 64).toInt = a.toInt := BitVec.toInt_signExtend_of_le (by decide)
  have extendB : (b.signExtend 64).toInt = b.toInt := BitVec.toInt_signExtend_of_le (by decide)
  have wideA : (a.setWidth 64).toNat = a.toNat := BitVec.toNat_setWidth_of_le (by decide)
  have wideB : (b.setWidth 64).toNat = b.toNat := BitVec.toNat_setWidth_of_le (by decide)
  obtain ⟨k, bound, rfl⟩ : ∃ k < 8, funct3 = BitVec.ofNat 8 k := ⟨_, known, by simp⟩
  interval_cases k
  · exact ⟨a * b, rfl, BitVec.toNat_mul a b⟩
  · have upper := toInt_upper_word (x := a.signExtend 64) (y := b.signExtend 64)
    rw [extendA, extendB] at upper
    exact ⟨_, rfl, upper fit.signed.1 fit.signed.2⟩
  · have upper := toInt_upper_word (x := a.signExtend 64) (y := b.setWidth 64)
    rw [extendA, toInt_setWidth_64] at upper
    exact ⟨_, rfl, upper fit.mixed.1 fit.mixed.2⟩
  · have upper := toNat_upper_word (x := a.setWidth 64) (y := b.setWidth 64)
    rw [wideA, wideB] at upper
    exact ⟨_, rfl, upper fit.unsigned⟩
  · refine ⟨_, rfl, fun zero => if_pos zero, ?_, ?_⟩
    · intro smallest minusOne
      have divides : b ≠ 0 := by
        rintro rfl
        cases minusOne
      rw [if_neg divides, (sdiv_overflow smallest minusOne).1]
      exact smallest
    · intro divides fits
      rw [if_neg divides]
      exact ⟨_, sdiv_truncated divides fits⟩
  · refine ⟨_, rfl, fun zero => if_pos zero, ?_⟩
    intro divides
    rw [if_neg divides]
    exact ⟨_, udiv_truncated divides⟩
  · refine ⟨_, rfl, fun zero => if_pos zero, ?_, ?_⟩
    · intro smallest minusOne
      have divides : b ≠ 0 := by
        rintro rfl
        cases minusOne
      rw [if_neg divides, (sdiv_overflow smallest minusOne).2]
    · intro divides
      rw [if_neg divides]
      exact srem_truncated divides
  · refine ⟨_, rfl, fun zero => if_pos zero, ?_⟩
    intro divides
    rw [if_neg divides]
    exact ⟨_, udiv_truncated divides⟩

/-- Three bits of `funct3`. -/
theorem funct3_lt (raw : U32) : (DecodedInst32.decode raw).funct3.toNat < 8 := by
  have small : (shiftThenMask raw 12 0x7).toNat ≤ 7 := mask_lt _ _
  change ((shiftThenMask raw 12 0x7).setWidth 8).toNat < 8
  rw [BitVec.toNat_setWidth]
  omega

/-- A word with the major opcode OP and `funct7 = 1` puts the exact value of its operands
into `rd` and moves on; nothing else changes, and no product overflows on the way. -/
theorem rv32m_exact (env : Env) (raw : U32) (m : Machine) (inst : DecodedInst32)
    (decoded : DecodedInst32.decode raw = inst) (major : inst.opcode = Opcode.op.bits)
    (mulDiv : inst.funct7 = 0x01) :
    ∃ val, (executeInst32 env raw).run m =
        .ok () { m with cpu := { m.cpu.writeReg inst.rd val with pc := m.cpu.pc + 4 } } ∧
      MulDivExact inst.funct3 (m.cpu.readReg inst.rs1) (m.cpu.readReg inst.rs2) val ∧
      ProductsFit (m.cpu.readReg inst.rs1) (m.cpu.readReg inst.rs2) := by
  have small : inst.funct3.toNat < 8 := decoded ▸ funct3_lt raw
  obtain ⟨val, value, means⟩ :=
    mulDivValue_exact small (m.cpu.readReg inst.rs1) (m.cpu.readReg inst.rs2)
  refine ⟨val, ?_, means, productsFit _ _⟩
  have operation : inst.op env m.cpu (m.cpu.pc + 4) = .write inst.rd val (m.cpu.pc + 4) := by
    rw [DecodedInst32.op, major, Opcode.ofBits?_bits]
    dsimp only
    rw [if_pos mulDiv, DecodedInst32.mulDivOp, value]
    rfl
  rw [executeInst32_run, decoded, dispatch_exec, operation]
  rfl

/-- `mulhsu x1, x1, x1` with the smallest operand, on a build that checks overflow. -/
theorem rv32m_exact_mulhsu :
    ∃ m val, (executeInst32 { (default : Env) with build := ⟨true, 32⟩ } 0x0210A0B3).run m =
        .ok () { m with cpu := { m.cpu.writeReg 1 val with pc := m.cpu.pc + 4 } } ∧
          val = 0xC0000000 := by
  obtain ⟨val, run, means, -⟩ := rv32m_exact { (default : Env) with build := ⟨true, 32⟩ } 0x0210A0B3
    { Machine.new with cpu := { Cpu.new with regs := fun _ => 0x80000000 } } _ rfl rfl rfl
  exact ⟨_, val, run, BitVec.eq_of_toInt_eq means⟩

end RiscvRs
