import Mathlib

/-! Byte stores over a wrapping address space, and little-endian values in them. -/

namespace Bytes

variable {w : Nat}

/-- The number spelled by bytes, least significant first. -/
def leNat : List (BitVec 8) → Nat
  | [] => 0
  | b :: bytes => b.toNat + 256 * leNat bytes

/-- The `n` bytes from `a` on. -/
def span (store : BitVec w → BitVec 8) (a : BitVec w) : Nat → List (BitVec 8)
  | 0 => []
  | n + 1 => store a :: span store (a + 1) n

/-- Overwrite consecutive bytes from `a` on. -/
def put (store : BitVec w → BitVec 8) (a : BitVec w) : List (BitVec 8) → BitVec w → BitVec 8
  | [] => store
  | b :: bytes => put (Function.update store a b) (a + 1) bytes

theorem sub_add_one_toNat (x a : BitVec w) (different : x ≠ a) :
    (x - a).toNat = (x - (a + 1)).toNat + 1 := by
  have positive : (x - a).toNat ≠ 0 := by
    intro zero
    exact different (sub_eq_zero.mp (BitVec.eq_of_toNat_eq (by simpa using zero)))
  have step : x - (a + 1) = x - a - 1 := (sub_sub x a 1).symm
  have bound := (x - a).isLt
  have one : (1 : BitVec w).toNat ≤ 1 := by
    rw [BitVec.ofNat_eq_ofNat, BitVec.toNat_ofNat]
    exact Nat.mod_le _ _
  have wide : 1 < 2 ^ w := by omega
  have exactly : (1 : BitVec w).toNat = 1 := by
    rw [BitVec.ofNat_eq_ofNat, BitVec.toNat_ofNat, Nat.mod_eq_of_lt wide]
  have lowered : (x - a - 1).toNat = (x - a).toNat - 1 := by
    rw [BitVec.toNat_sub_of_le (by rw [BitVec.le_def, exactly]; omega), exactly]
  rw [step, lowered]
  omega

/-- A byte after `put`: the written one inside the stretch, the old one outside. -/
theorem put_apply (store : BitVec w → BitVec 8) (a : BitVec w) (bytes : List (BitVec 8))
    (fits : bytes.length ≤ 2 ^ w) (x : BitVec w) :
    put store a bytes x = bytes.getD (x - a).toNat (store x) := by
  induction bytes generalizing store a with
  | nil => simp [put]
  | cons b rest ih =>
    rw [put, ih _ _ (by simp at fits; omega)]
    by_cases here : x = a
    · subst here
      -- the rest wraps all the way round before it could reach `x` again
      have far : rest.length ≤ (x - (x + 1)).toNat := by
        have wrapped : x - (x + 1) = -1 := by
          rw [← sub_sub, sub_self, zero_sub]
        simp only [List.length_cons] at fits
        have positive : 0 < 2 ^ w := Nat.two_pow_pos w
        rw [wrapped, BitVec.ofNat_eq_ofNat, BitVec.neg_one_eq_allOnes, BitVec.toNat_allOnes]
        omega
      rw [List.getD_eq_default _ _ far]
      simp
    · rw [sub_add_one_toNat x a here, Function.update_of_ne here]
      simp

theorem leNat_lt (bytes : List (BitVec 8)) : leNat bytes < 2 ^ (8 * bytes.length) := by
  induction bytes with
  | nil => simp [leNat]
  | cons b rest ih =>
    have low := b.isLt
    have wider : 2 ^ (8 * (b :: rest).length) = 256 * 2 ^ (8 * rest.length) := by
      rw [List.length_cons, Nat.mul_succ, Nat.pow_add]
      omega
    rw [leNat, wider]
    omega

@[simp] theorem length_span (store : BitVec w → BitVec 8) (a : BitVec w) (n : Nat) :
    (span store a n).length = n := by
  induction n generalizing a with
  | zero => rfl
  | succ n ih => rw [span, List.length_cons, ih]

theorem getElem_span (store : BitVec w → BitVec 8) (a : BitVec w) (n i : Nat)
    (bound : i < (span store a n).length) :
    (span store a n)[i] = store (a + BitVec.ofNat w i) := by
  induction n generalizing a i with
  | zero => simp [span] at bound
  | succ n ih =>
    cases i with
    | zero => simp [span]
    | succ i =>
      have next : a + 1 + BitVec.ofNat w i = a + BitVec.ofNat w (i + 1) := by
        rw [BitVec.ofNat_add, BitVec.add_assoc, BitVec.add_comm (BitVec.ofNat w i)]
        rfl
      rw [← next]
      exact ih (a + 1) i (by simpa [span] using bound)

/-- Reading back what was put. -/
theorem span_put (store : BitVec w → BitVec 8) (a : BitVec w) (bytes : List (BitVec 8))
    (fits : bytes.length ≤ 2 ^ w) :
    span (put store a bytes) a bytes.length = bytes := by
  apply List.ext_getElem
  · exact length_span _ _ _
  · intro i left right
    have offset : (a + BitVec.ofNat w i - a).toNat = i := by
      rw [BitVec.add_comm, BitVec.add_sub_cancel, BitVec.toNat_ofNat, Nat.mod_eq_of_lt (by omega)]
    rw [getElem_span, put_apply _ _ _ fits, offset, List.getD_eq_getElem _ _ right]

theorem put_outside (store : BitVec w → BitVec 8) (a : BitVec w) (bytes : List (BitVec 8))
    (fits : bytes.length ≤ 2 ^ w)
    {x : BitVec w} (outside : bytes.length ≤ (x - a).toNat) : put store a bytes x = store x := by
  rw [put_apply _ _ _ fits, List.getD_eq_default _ _ outside]

/-- Byte lists of one length that spell the same number are the same. -/
theorem leNat_inj {a b : List (BitVec 8)} (size : a.length = b.length) (value : leNat a = leNat b) :
    a = b := by
  induction a generalizing b with
  | nil => exact (List.eq_nil_of_length_eq_zero size.symm).symm
  | cons x rest ih =>
    cases b with
    | nil => cases size
    | cons y others =>
      have xBound := x.isLt
      have yBound := y.isLt
      simp only [leNat] at value
      have head : x = y := BitVec.eq_of_toNat_eq (by omega)
      have tail : rest = others := ih (by simpa using size) (by omega)
      rw [head, tail]

theorem leNat_append (low high : List (BitVec 8)) :
    leNat (low ++ high) = leNat low + 2 ^ (8 * low.length) * leNat high := by
  induction low with
  | nil => simp [leNat]
  | cons b rest ih =>
    have wider : 2 ^ (8 * (b :: rest).length) = 256 * 2 ^ (8 * rest.length) := by
      rw [List.length_cons, Nat.mul_succ, Nat.pow_add]
      omega
    rw [List.cons_append, leNat, leNat, ih, wider, Nat.mul_add, Nat.mul_assoc, Nat.add_assoc]

theorem span_add (store : BitVec w → BitVec 8) (a : BitVec w) (k j : Nat) :
    span store a (k + j) = span store a k ++ span store (a + BitVec.ofNat w k) j := by
  induction k generalizing a with
  | zero => simp [span]
  | succ k ih =>
    have next : a + 1 + BitVec.ofNat w k = a + BitVec.ofNat w (k + 1) := by
      rw [BitVec.ofNat_add, BitVec.add_assoc, BitVec.add_comm (BitVec.ofNat w k)]
      rfl
    rw [Nat.add_right_comm, span, ih, next, span, List.cons_append]

/-- Concatenation, the first part most significant. -/
theorem toNat_append_eq {u v : Nat} (x : BitVec u) (y : BitVec v) :
    (x ++ y).toNat = x.toNat * 2 ^ v + y.toNat := by
  rw [BitVec.toNat_append, ← Nat.shiftLeft_add_eq_or_of_lt y.isLt, Nat.shiftLeft_eq]

end Bytes
