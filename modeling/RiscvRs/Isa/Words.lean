import RiscvRs.Isa.Rv32i
import RiscvRs.Lib.Bytes

/-! The integers of the reference semantics as 32-bit words. -/

namespace Isa

open Bytes

theorem wrap_eq (z : Int) : wrap z = (BitVec.ofInt 32 z).toNat := by
  rw [BitVec.toNat_ofInt]
  rfl

@[simp] theorem ofInt_toNat (x : BitVec 32) : BitVec.ofInt 32 (x.toNat : Int) = x := by
  rw [BitVec.ofInt_natCast, BitVec.ofNat_toNat, BitVec.setWidth_eq]

theorem signed_toNat {n : Nat} (x : BitVec n) (wide : 0 < n) : signed n x.toNat = x.toInt := by
  have twice : 2 ^ n = 2 * 2 ^ (n - 1) := by
    rw [← Nat.pow_succ', Nat.succ_eq_add_one, Nat.sub_add_cancel wide]
  have same : x.toNat < 2 ^ (n - 1) ↔ 2 * x.toNat < 2 ^ n := by omega
  rw [signed, BitVec.toInt_eq_toNat_cond]
  simp only [same]
  push_cast
  rfl

/-- Sign extension keeps the integer. -/
theorem ofInt_signed {n : Nat} (x : BitVec n) (wide : 0 < n) :
    BitVec.ofInt 32 (signed n x.toNat) = x.signExtend 32 := by
  rw [signed_toNat x wide]
  rfl

/-- A stretch of the low bits. -/
theorem low_bits {n lo k : Nat} (x : Nat) (inside : lo + k ≤ n) :
    x % 2 ^ n / 2 ^ lo % 2 ^ k = x / 2 ^ lo % 2 ^ k := by
  have split : 2 ^ n = 2 ^ lo * 2 ^ (n - lo) := by
    rw [← Nat.pow_add, Nat.add_sub_cancel' (by omega)]
  rw [split, Nat.mod_mul_right_div_self, Nat.mod_mod_of_dvd]
  exact Nat.pow_dvd_pow 2 (by omega)

section Immediates

variable {n : Nat}

/-- The low bits of an immediate in range are its whole value. -/
theorem signed_low (imm : BitVec 32) (wide : 0 < n) (narrow : n ≤ 32)
    (least : -2 ^ (n - 1) ≤ imm.toInt)
    (most : imm.toInt < 2 ^ (n - 1)) : signed n (imm.toNat % 2 ^ n) = imm.toInt := by
  have twice : (2 ^ n : Nat) = 2 ^ (n - 1) * 2 := by
    rw [← Nat.pow_succ, Nat.succ_eq_add_one, Nat.sub_add_cancel wide]
  have twiceInt : ((2 ^ n : Nat) : Int) = 2 ^ (n - 1) * 2 := by
    rw [twice]
    push_cast
    rfl
  have low : (imm.signExtend n).toNat = imm.toNat % 2 ^ n := by
    rw [BitVec.signExtend_eq_setWidth_of_le imm narrow, BitVec.toNat_setWidth]
  rw [← low, signed_toNat _ wide, BitVec.toInt_signExtend_eq_toInt_bmod_of_le imm narrow]
  refine Int.bmod_eq_of_le_mul_two ?_ ?_
  · rw [twiceInt]
    omega
  · rw [twiceInt]
    omega

/-- A field that is extended keeps its bits. -/
theorem low_signed {x : Nat} (narrow : n ≤ 32) (small : x < 2 ^ n) :
    (BitVec.ofInt 32 (signed n x)).toNat % 2 ^ n = x := by
  have divides : (2 ^ n : Int) ∣ 2 ^ 32 := pow_dvd_pow 2 narrow
  have positive : (0 : Int) ≤ signed n x % 2 ^ 32 := Int.emod_nonneg _ (by decide)
  have reduced : signed n x % 2 ^ n = x := by
    have exact : (x : Int) % 2 ^ n = x := Int.emod_eq_of_lt (by omega) (by exact_mod_cast small)
    rw [signed]
    split
    · exact exact
    · rw [Int.sub_emod_right, exact]
  have cast : (((BitVec.ofInt 32 (signed n x)).toNat % 2 ^ n : Nat) : Int) = x := by
    rw [← wrap_eq, wrap, Int.natCast_emod, Int.toNat_of_nonneg positive, Nat.cast_pow, Nat.cast_ofNat,
      Int.emod_emod_of_dvd _ divides, reduced]
  exact_mod_cast cast

end Immediates

/-- The same operations on words. -/
def Alu.onWords (op : Alu) (a b : BitVec 32) : BitVec 32 :=
  match op with
  | add => a + b
  | sub => a - b
  | sll => a <<< (b &&& 31).toNat
  | slt => if a.slt b then 1 else 0
  | sltu => if a.ult b then 1 else 0
  | xor => a ^^^ b
  | srl => a >>> (b &&& 31).toNat
  | sra => a.sshiftRight (b &&& 31).toNat
  | or => a ||| b
  | and => a &&& b

theorem low_five (b : BitVec 32) : (b &&& 31).toNat = b.toNat % 32 := by
  rw [BitVec.toNat_and]
  exact Nat.and_two_pow_sub_one_eq_mod b.toNat 5

theorem Alu.ofInt_eval (op : Alu) (a b : BitVec 32) :
    BitVec.ofInt 32 (op.eval a.toNat b.toNat) = op.onWords a b := by
  cases op with
  | add => rw [eval, BitVec.ofInt_add, ofInt_toNat, ofInt_toNat, onWords]
  | sub =>
    rw [eval, sub_eq_add_neg, BitVec.ofInt_add, BitVec.ofInt_neg, ofInt_toNat, ofInt_toNat, onWords,
      sub_eq_add_neg]
  | sll =>
    have power : (2 ^ (b.toNat % 32) : Int) = (2 ^ (b.toNat % 32) : Nat) := by push_cast; rfl
    have shifted : BitVec.twoPow 32 (b.toNat % 32) = BitVec.ofNat 32 (2 ^ (b.toNat % 32)) := by
      apply BitVec.eq_of_toNat_eq
      rw [BitVec.toNat_twoPow, BitVec.toNat_ofNat]
    rw [eval, onWords, low_five, BitVec.shiftLeft_eq_mul_twoPow, BitVec.ofInt_mul,
      ofInt_toNat, power,
      BitVec.ofInt_natCast, shifted]
  | slt =>
    rw [eval, onWords, signed_toNat a (by decide), signed_toNat b (by decide)]
    simp only [BitVec.slt_iff_toInt_lt, apply_ite (BitVec.ofInt 32)]
    rfl
  | sltu =>
    rw [eval, onWords]
    simp only [BitVec.ult_iff_toNat_lt, apply_ite (BitVec.ofInt 32)]
    rfl
  | xor => rw [eval, onWords, ← BitVec.toNat_xor, ofInt_toNat]
  | srl =>
    rw [eval, onWords, low_five, ← Nat.shiftRight_eq_div_pow, ← BitVec.toNat_ushiftRight,
      ofInt_toNat]
  | sra =>
    rw [eval, onWords, low_five, signed_toNat a (by decide), BitVec.sshiftRight,
      Int.shiftRight_eq_div_pow]
    push_cast
    rfl
  | or => rw [eval, onWords, ← BitVec.toNat_or, ofInt_toNat]
  | and => rw [eval, onWords, ← BitVec.toNat_and, ofInt_toNat]

/-- The conditions on words. -/
def Cond.onWords (cond : Cond) (a b : BitVec 32) : Bool :=
  match cond with
  | eq => a == b
  | ne => a != b
  | lt => a.slt b
  | ge => b.sle a
  | ltu => a.ult b
  | geu => b.ule a

theorem Cond.holds_toNat (cond : Cond) (a b : BitVec 32) :
    cond.holds a.toNat b.toNat = cond.onWords a b := by
  have signedA := signed_toNat a (by decide)
  have signedB := signed_toNat b (by decide)
  rw [Bool.eq_iff_iff]
  cases cond with
  | eq => simp [holds, onWords, BitVec.toNat_inj]
  | ne => simp [holds, onWords, BitVec.toNat_inj]
  | lt => simp [holds, onWords, signedA, signedB, BitVec.slt_iff_toInt_lt]
  | ge => simp [holds, onWords, signedA, signedB, BitVec.sle_iff_toInt_le]
  | ltu => simp [holds, onWords, BitVec.ult_iff_toNat_lt]
  | geu => simp [holds, onWords, BitVec.ule_iff_toNat_le]

/-- A byte store over words, read as a memory over numbers. -/
def ofStore (store : BitVec 32 → BitVec 8) (a : Nat) : Nat := (store (BitVec.ofNat 32 a)).toNat

theorem bytesAt_ofStore (store : BitVec 32 → BitVec 8) (addr n : Nat) :
    bytesAt (ofStore store) addr n = leNat (span store (BitVec.ofNat 32 addr) n) := by
  induction n generalizing addr with
  | zero => rfl
  | succ n ih =>
    have next : BitVec.ofNat 32 addr + 1 = BitVec.ofNat 32 (addr + 1) :=
      (BitVec.ofNat_add addr 1).symm
    rw [bytesAt, ih, span, leNat, next, ofStore]

/-- The distance between two addresses. -/
theorem wrap_sub (a : Nat) (addr : BitVec 32) :
    wrap (a - addr.toNat) = (BitVec.ofNat 32 a - addr).toNat := by
  rw [wrap_eq, sub_eq_add_neg, BitVec.ofInt_add, BitVec.ofInt_neg, ofInt_toNat,
    BitVec.ofInt_natCast, sub_eq_add_neg]

end Isa
