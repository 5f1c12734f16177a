import RiscvRs.Lib.Ieee

/-! What a datum stands for: its class, and the rational value of a finite one. -/

namespace Ieee

/-- The classes of a datum. -/
inductive Class where
  | negInfinite | negNormal | negSubnormal | negZero | posZero | posSubnormal | posNormal | posInfinite
  | signallingNan | quietNan
deriving DecidableEq, Repr

/-- An integer part: the fraction is dropped on either side of zero. -/
def truncate (x : ℚ) : Int := if x < 0 then ⌈x⌉ else ⌊x⌋

theorem truncate_natCast_div (a b : Nat) : truncate ((a : ℚ) / b) = (a / b : Nat) := by
  have positive : ¬ (a : ℚ) / b < 0 := not_lt.mpr (by positivity)
  rw [truncate, if_neg positive, ← Nat.floor_div_eq_div (K := ℚ),
    Int.natCast_floor_eq_floor (by positivity)]

theorem truncate_natCast (n : Nat) : truncate (n : ℚ) = n := by
  rw [truncate, if_neg (by simp), Int.floor_natCast]

theorem truncate_neg (x : ℚ) : truncate (-x) = -truncate x := by
  unfold truncate
  rcases lt_trichotomy x 0 with below | rfl | above
  · rw [if_pos below, if_neg (by linarith), Int.floor_neg]
  · simp
  · rw [if_pos (by linarith), if_neg (by linarith), Int.ceil_neg]

namespace Format

variable (f : Format)

/-- The class by sign, exponent and fraction; the leading fraction bit tells the NaNs apart. -/
def classify (bits : Nat) : Class :=
  if f.exponent bits = 2 ^ f.expBits - 1 then
    if f.fraction bits = 0 then
      if f.isNegative bits then .negInfinite else .posInfinite
    else if f.fraction bits / 2 ^ (f.fracBits - 1) % 2 = 1 then .quietNan
    else .signallingNan
  else if f.exponent bits = 0 then
    if f.fraction bits = 0 then
      if f.isNegative bits then .negZero else .posZero
    else if f.isNegative bits then .negSubnormal
    else .posSubnormal
  else if f.isNegative bits then .negNormal
  else .posNormal

/-- The leading digit: a datum with exponent zero has none. -/
def hidden (bits : Nat) : Nat := if f.exponent bits = 0 then 0 else 1

/-- The value of a finite datum. -/
def value (bits : Nat) : ℚ :=
  (if f.isNegative bits then -1 else 1) *
    (f.hidden bits + f.fraction bits / 2 ^ f.fracBits) * 2 ^
      ((max (f.exponent bits) 1 : ℤ) - f.bias)

/-- Conversion to an integer between two bounds: truncation, then the nearer bound; a NaN
goes to the upper bound. -/
def convertToInt (low high : Int) (bits : Nat) : Int :=
  if f.isNan bits then high
  else if f.isInfinite bits then (if f.isNegative bits then low else high)
  else max low (min high (truncate (f.value bits)))

section Value

variable {f} (bits : Nat)

/-- Fraction and leading digit as one integer. -/
theorem significand_eq :
    (f.hidden bits + f.fraction bits / 2 ^ f.fracBits : ℚ) =
      (f.fraction bits + if f.exponent bits = 0 then 0 else 2 ^ f.fracBits :
        Nat) / 2 ^ f.fracBits := by
  have positive : (2 : ℚ) ^ f.fracBits ≠ 0 := by positivity
  unfold hidden
  split
  · simp
  · push_cast
    rw [add_div, div_self positive, add_comm]

/-- The integer part of the magnitude is the shifted significand. -/
theorem truncate_magnitude :
    truncate ((f.hidden bits + f.fraction bits / 2 ^ f.fracBits) *
      2 ^ ((max (f.exponent bits) 1 : ℤ) - f.bias)) = f.truncMagnitude bits := by
  rw [significand_eq, truncMagnitude]
  generalize (f.fraction bits + if f.exponent bits = 0 then 0 else 2 ^ f.fracBits : Nat) = significand
  have scale : (max (f.exponent bits) 1 : ℤ) = (max (f.exponent bits) 1 : Nat) := by simp
  rw [scale]
  generalize max (f.exponent bits) 1 = scale
  have base : (2 : ℚ) ≠ 0 := two_ne_zero
  rw [div_mul_eq_mul_div, mul_div_assoc, ← zpow_natCast 2 f.fracBits, ← zpow_sub₀ base]
  split
  · next large =>
    have exact : (scale : ℤ) - f.bias - f.fracBits = (scale - (f.bias + f.fracBits) : Nat) := by
      omega
    have integer := truncate_natCast (significand * 2 ^ (scale - (f.bias + f.fracBits)))
    rw [exact, zpow_natCast, ← integer]
    push_cast
    rfl
  · next small =>
    have exact : (scale : ℤ) - f.bias - f.fracBits = -(f.bias + f.fracBits - scale : Nat) := by
      omega
    have shifted := truncate_natCast_div significand (2 ^ (f.bias + f.fracBits - scale))
    rw [exact, zpow_neg, zpow_natCast, ← div_eq_mul_inv, ← shifted]
    push_cast
    rfl

theorem truncate_value :
    truncate (f.value bits) =
      if f.isNegative bits then -(f.truncMagnitude bits : Int) else f.truncMagnitude bits := by
  rw [value, mul_assoc]
  split
  · rw [neg_one_mul, truncate_neg, truncate_magnitude]
  · rw [one_mul, truncate_magnitude]

/-- A cast that sends a NaN to zero converts every other datum. -/
theorem toIntSaturating_eq {low high : Int} (number : f.isNan bits = false) :
    f.toIntSaturating low high bits = f.convertToInt low high bits := by
  unfold toIntSaturating convertToInt
  rw [number, truncate_value]
  rfl

theorem magnitude_eq : f.magnitude bits = f.exponent bits * 2 ^ f.fracBits + f.fraction bits := by
  rw [magnitude, exponent, fraction, Nat.add_comm f.expBits, Nat.pow_add, Nat.mod_mul, Nat.mul_comm,
    Nat.add_comm]

theorem isZero_iff : f.isZero bits = true ↔ f.exponent bits = 0 ∧ f.fraction bits = 0 := by
  rw [isZero, beq_iff_eq, magnitude_eq, Nat.add_eq_zero_iff, Nat.mul_eq_zero]
  simp

/-- One decision after the other, as hardware manuals list the classes. -/
theorem classify_eq :
    f.classify bits =
      if f.isInfinite bits then (if f.isNegative bits then .negInfinite else .posInfinite)
      else if f.isNan bits then
        if f.fraction bits / 2 ^ (f.fracBits - 1) % 2 = 1 then .quietNan else .signallingNan
      else if f.isZero bits then (if f.isNegative bits then .negZero else .posZero)
      else if f.isSubnormal bits then (if f.isNegative bits then .negSubnormal else .posSubnormal)
      else if f.isNegative bits then .negNormal
      else .posNormal := by
  unfold classify isInfinite isNan isSubnormal
  simp only [Bool.and_eq_true, beq_iff_eq, bne_iff_ne, isZero_iff]
  by_cases top : f.exponent bits = 2 ^ f.expBits - 1
  · by_cases whole : f.fraction bits = 0
    · simp only [top, whole, and_self, if_true]
    · simp only [top, whole, and_false, not_false_eq_true, and_self, ne_eq, if_true, if_false]
  · simp only [top, false_and, if_false]
    by_cases low : f.exponent bits = 0
    · by_cases whole : f.fraction bits = 0
      · simp only [low, whole, and_self, if_true]
      · simp only [low, whole, and_false, ne_eq, not_false_eq_true, and_self, if_true, if_false]
    · simp only [low, false_and, if_false]

end Value

end Format

end Ieee
