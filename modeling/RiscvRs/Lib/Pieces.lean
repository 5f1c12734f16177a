import Mathlib

/-! Words put together from fields at disjoint positions. -/

namespace Pieces

variable {w : Nat}

/-- A word with a known value whose ones all lie under `mask`. -/
structure Piece (x : BitVec w) (value : Nat) (mask : BitVec w) : Prop where
  toNat_eq : x.toNat = value
  under : x &&& mask = x

namespace Piece

variable {x y m n : BitVec w} {a b : Nat}

/-- The bits from `lo + s` on that a mask of `k` ones at position `s` selects. -/
theorem field (x : BitVec w) {mask : BitVec w} (lo k s : Nat)
    (ones : mask.toNat = (2 ^ k - 1) * 2 ^ s) :
    Piece (x >>> lo &&& mask) (x.toNat / 2 ^ (lo + s) % 2 ^ k * 2 ^ s) mask where
  toNat_eq := by
    have moved (z : Nat) : z &&& ((2 ^ k - 1) <<< s) = ((z >>> s) &&& (2 ^ k - 1)) <<< s := by
      apply Nat.eq_of_testBit_eq
      intro i
      by_cases past : s ≤ i
      · simp [Nat.testBit_shiftLeft, Nat.testBit_shiftRight, past, Nat.add_sub_cancel' past,
          Bool.and_comm]
      · simp [Nat.testBit_shiftLeft, past]
    rw [BitVec.toNat_and, BitVec.toNat_ushiftRight, ones, ← Nat.shiftLeft_eq, moved,
      Nat.and_two_pow_sub_one_eq_mod,
      Nat.shiftLeft_eq, ← Nat.shiftRight_add, Nat.shiftRight_eq_div_pow]
  under := by rw [BitVec.and_assoc, BitVec.and_self]

/-- The low bits that a mask of `k` ones selects. -/
theorem low (x mask : BitVec w) (k : Nat) (ones : mask.toNat = 2 ^ k - 1) :
    Piece (x &&& mask) (x.toNat % 2 ^ k) mask where
  toNat_eq := by rw [BitVec.toNat_and, ones, Nat.and_two_pow_sub_one_eq_mod]
  under := by rw [BitVec.and_assoc, BitVec.and_self]

/-- A word that fits under a mask of `k` ones. -/
theorem small (x mask : BitVec w) (k : Nat) (ones : mask.toNat = 2 ^ k - 1)
    (bound : x.toNat < 2 ^ k) :
    Piece x x.toNat mask where
  toNat_eq := rfl
  under := by
    apply BitVec.eq_of_toNat_eq
    rw [BitVec.toNat_and, ones, Nat.and_two_pow_sub_one_eq_mod, Nat.mod_eq_of_lt bound]

theorem shiftLeft (piece : Piece x a m) (s : Nat) (room : m.toNat * 2 ^ s < 2 ^ w) :
    Piece (x <<< s) (a * 2 ^ s) (m <<< s) where
  toNat_eq := by
    have bound : x.toNat ≤ m.toNat := by
      rw [← piece.under, BitVec.toNat_and]
      exact Nat.and_le_right
    rw [BitVec.toNat_shiftLeft, Nat.shiftLeft_eq, ← piece.toNat_eq, Nat.mod_eq_of_lt]
    exact (Nat.mul_le_mul_right _ bound).trans_lt room
  under := by rw [← BitVec.shiftLeft_and_distrib, piece.under]

theorem setWidth (piece : Piece x a m) {v : Nat} (wider : w ≤ v) :
    Piece (x.setWidth v) a (m.setWidth v) where
  toNat_eq := by rw [BitVec.toNat_setWidth_of_le wider, piece.toNat_eq]
  under := by rw [← BitVec.setWidth_and, piece.under]

/-- Pieces under masks without a common bit add up. -/
theorem or (first : Piece x a m) (second : Piece y b n) (apart : m &&& n = 0#w) :
    Piece (x ||| y) (a + b) (m ||| n) where
  toNat_eq := by
    have disjoint : x &&& y = 0#w := by
      calc x &&& y = (x &&& m) &&& (y &&& n) := by rw [first.under, second.under]
        _ = (x &&& y) &&& (m &&& n) := by ac_rfl
        _ = 0#w := by rw [apart, BitVec.and_zero]
    rw [← BitVec.add_eq_or_of_and_eq_zero x y disjoint, BitVec.toNat_add_of_and_eq_zero disjoint,
      first.toNat_eq,
      second.toNat_eq]
  under := by
    ext i inside
    have firstBit := congrArg (·[i]) first.under
    have secondBit := congrArg (·[i]) second.under
    simp only [BitVec.getElem_and, BitVec.getElem_or] at firstBit secondBit ⊢
    revert firstBit secondBit
    cases x[i] <;> cases y[i] <;> cases m[i] <;> cases n[i] <;> decide

end Piece

end Pieces
