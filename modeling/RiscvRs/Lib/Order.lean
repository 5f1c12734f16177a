import RiscvRs.Lib.Datum

/-! The order of data: the bit patterns of a format are ordered as the values they stand for, with
the infinities at either end. -/

namespace Ieee

namespace Format

variable (f : Format)

/-- The size of a magnitude in units of the smallest subnormal. -/
def units (magnitude : Nat) : Nat :=
  (magnitude % 2 ^ f.fracBits + if magnitude / 2 ^ f.fracBits = 0 then 0 else 2 ^ f.fracBits) *
    2 ^ (max (magnitude / 2 ^ f.fracBits) 1 - 1)

/-- The extended value of a datum that is not a NaN. -/
def extended (bits : Nat) : WithBot (WithTop ℚ) :=
  if f.isInfinite bits then (if f.isNegative bits then ⊥ else ⊤) else ((f.value bits : WithTop ℚ) :
    WithBot (WithTop ℚ))

/-- The number a datum stands for, if it is one. -/
def number (bits : Nat) : Option (WithBot (WithTop ℚ)) :=
  if f.isNan bits then none else some (f.extended bits)

variable {f}

section Units

theorem units_zero : f.units 0 = 0 := by simp [units]

/-- One more in the last place: the next fraction, or the start of the next binade. -/
theorem units_lt_succ (m : Nat) : f.units m < f.units (m + 1) := by
  have positive : 0 < 2 ^ f.fracBits := by positivity
  have parts := Nat.div_add_mod m (2 ^ f.fracBits)
  have inside := Nat.mod_lt m positive
  unfold units
  generalize m / 2 ^ f.fracBits = e, m % 2 ^ f.fracBits = r at parts inside
  generalize scale : 2 ^ f.fracBits = p at *
  by_cases full : r + 1 = p
  · have carry : m + 1 = p * (e + 1) := by rw [Nat.mul_succ]; omega
    rw [carry, Nat.mul_div_cancel_left _ positive, Nat.mul_mod_right, if_neg (Nat.succ_ne_zero e)]
    rcases Nat.eq_zero_or_pos e with rfl | above
    · simp
      omega
    · obtain ⟨d, rfl⟩ := Nat.exists_eq_succ_of_ne_zero above.ne'
      have low : max (d + 1) 1 - 1 = d := by omega
      have high : max (d + 1 + 1) 1 - 1 = d + 1 := by omega
      rw [if_neg above.ne', low, high, Nat.pow_succ]
      have room : 0 < 2 ^ d := by positivity
      nlinarith
  · have next : m + 1 = p * e + (r + 1) := by omega
    have small : r + 1 < p := by omega
    have same : (p * e + (r + 1)) / p = e := by
      rw [Nat.mul_add_div positive, Nat.div_eq_of_lt small, Nat.add_zero]
    rw [next, same, Nat.mul_add_mod, Nat.mod_eq_of_lt small]
    have room : 0 < 2 ^ (max e 1 - 1) := by positivity
    exact Nat.mul_lt_mul_of_pos_right (by omega) room

theorem units_strictMono : StrictMono f.units := strictMono_nat_of_lt_succ units_lt_succ

theorem magnitude_div (bits : Nat) : f.magnitude bits / 2 ^ f.fracBits = f.exponent bits := by
  have inside : f.fraction bits < 2 ^ f.fracBits := Nat.mod_lt _ (by positivity)
  rw [magnitude_eq, Nat.mul_comm, Nat.mul_add_div (by positivity), Nat.div_eq_of_lt inside,
    Nat.add_zero]

theorem magnitude_mod (bits : Nat) : f.magnitude bits % 2 ^ f.fracBits = f.fraction bits := by
  have inside : f.fraction bits < 2 ^ f.fracBits := Nat.mod_lt _ (by positivity)
  rw [magnitude_eq, Nat.mul_comm, Nat.mul_add_mod, Nat.mod_eq_of_lt inside]

/-- The size of a finite datum as a whole number of units. -/
theorem size_eq (bits : Nat) :
    (f.hidden bits + f.fraction bits / 2 ^ f.fracBits : ℚ) *
        2 ^ ((max (f.exponent bits) 1 : ℤ) - f.bias) =
      f.units (f.magnitude bits) * 2 ^ ((1 : ℤ) - f.bias - f.fracBits) := by
  rw [significand_eq, units, magnitude_div, magnitude_mod]
  generalize f.fraction bits + (if f.exponent bits = 0 then 0 else 2 ^ f.fracBits) = significand
  have scale : (max (f.exponent bits) 1 : ℤ) = ((max (f.exponent bits) 1 - 1 : Nat) : ℤ) + 1 := by
    omega
  rw [scale]
  generalize max (f.exponent bits) 1 - 1 = shift
  have base : (2 : ℚ) ≠ 0 := two_ne_zero
  have exponents : (shift : ℤ) + 1 - f.bias = shift + (1 - f.bias - f.fracBits) + f.fracBits := by
    omega
  rw [exponents, zpow_add₀ base, zpow_add₀ base, zpow_natCast, zpow_natCast]
  have positive : (2 : ℚ) ^ f.fracBits ≠ 0 := by positivity
  push_cast
  field_simp

end Units

section Values

/-- A place on the number line in units of the smallest subnormal. -/
def scaled (f : Format) (place : ℤ) : ℤ :=
  if place < 0 then -f.units place.natAbs else f.units place.natAbs

theorem scaled_strictMono : StrictMono f.scaled := by
  intro r s less
  have units {m n : Nat} (below : m < n) : (f.units m : ℤ) < f.units n := by
    exact_mod_cast units_strictMono below
  unfold scaled
  by_cases neg : r < 0
  · rw [if_pos neg]
    have some : (f.units 0 : ℤ) < f.units r.natAbs := units (by omega)
    rw [units_zero] at some
    split
    · have order : (f.units s.natAbs : ℤ) < f.units r.natAbs := units (by omega)
      omega
    · omega
  · rw [if_neg neg, if_neg (by omega)]
    exact units (by omega)

theorem value_scaled (bits : Nat) :
    f.value bits = f.scaled (f.rank bits) * 2 ^ ((1 : ℤ) - f.bias - f.fracBits) := by
  rw [value, mul_assoc, size_eq, rank, scaled]
  by_cases negative : f.isNegative bits = true
  · rw [if_pos negative, if_pos negative, Int.natAbs_neg, Int.natAbs_natCast]
    by_cases zero : f.magnitude bits = 0
    · simp [zero, units_zero]
    · rw [if_pos (by omega)]
      push_cast
      ring
  · rw [if_neg negative, if_neg negative, Int.natAbs_natCast, if_neg (by omega)]
    push_cast
    ring

/-- Finite data are ordered by their places. -/
theorem value_lt (a b : Nat) : f.value a < f.value b ↔ f.rank a < f.rank b := by
  have unit : (0 : ℚ) < 2 ^ ((1 : ℤ) - f.bias - f.fracBits) := by positivity
  rw [value_scaled, value_scaled, mul_lt_mul_iff_left₀ unit, Int.cast_lt,
    scaled_strictMono.lt_iff_lt]

end Values

section Extended

variable {a b : Nat}

/-- The magnitude of the infinities. -/
def top (f : Format) : Nat := (2 ^ f.expBits - 1) * 2 ^ f.fracBits

/-- A datum that is no NaN is an infinity or below it. -/
theorem infinite_or_below (number : f.isNan a = false) :
    (f.isInfinite a = true ∧ f.magnitude a = f.top) ∨
      (f.isInfinite a = false ∧ f.magnitude a < f.top) := by
  have inside : f.fraction a < 2 ^ f.fracBits := Nat.mod_lt _ (by positivity)
  have positive : 0 < 2 ^ f.expBits := by positivity
  have bounded : f.exponent a < 2 ^ f.expBits := Nat.mod_lt _ positive
  rw [magnitude_eq, top, isInfinite]
  by_cases last : f.exponent a = 2 ^ f.expBits - 1
  · have whole : f.fraction a = 0 := by simpa [isNan, last] using number
    exact .inl ⟨by simp [last, whole], by rw [last, whole, Nat.add_zero]⟩
  · refine .inr ⟨by simp [last], ?_⟩
    have next : f.exponent a + 1 ≤ 2 ^ f.expBits - 1 := by omega
    have binade := Nat.mul_le_mul_right (2 ^ f.fracBits) next
    rw [Nat.succ_mul] at binade
    omega

/-- The three kinds of numbers, with their places. -/
theorem extended_cases (number : f.isNan a = false) :
    (f.extended a = ⊥ ∧ f.rank a = -f.top) ∨ (f.extended a = ⊤ ∧ f.rank a = f.top) ∨
      (f.extended a = ((f.value a : WithTop ℚ) : WithBot (WithTop ℚ)) ∧ -f.top < f.rank a ∧
        f.rank a < f.top) := by
  rcases infinite_or_below number with ⟨infinite, size⟩ | ⟨finite, size⟩
  · rw [extended, if_pos infinite, rank, size]
    cases f.isNegative a with
    | true => exact .inl ⟨rfl, rfl⟩
    | false => exact .inr (.inl ⟨rfl, rfl⟩)
  · rw [extended, finite, rank]
    refine .inr (.inr ⟨rfl, ?_⟩)
    split
    · omega
    · omega

theorem extended_lt_of_rank (number : f.isNan a = false) (number' : f.isNan b = false)
    (less : f.rank a < f.rank b) : f.extended a < f.extended b := by
  rcases extended_cases number with ⟨low, place⟩ | ⟨high, place⟩ | ⟨finite, above, below⟩
  · rw [low]
    rcases extended_cases number' with ⟨low', place'⟩ | ⟨high', place'⟩ | ⟨finite', above', below'⟩
    · omega
    · rw [high']
      exact bot_lt_top
    · rw [finite']
      exact WithBot.bot_lt_coe _
  · rcases extended_cases number' with ⟨low', place'⟩ | ⟨high', place'⟩ | ⟨finite', above', below'⟩
    · omega
    · omega
    · omega
  · rw [finite]
    rcases extended_cases number' with ⟨low', place'⟩ | ⟨high', place'⟩ | ⟨finite', above', below'⟩
    · omega
    · rw [high']
      exact WithBot.coe_lt_coe.mpr (WithTop.coe_lt_top _)
    · rw [finite']
      exact WithBot.coe_lt_coe.mpr (WithTop.coe_lt_coe.mpr ((value_lt a b).mpr less))

/-- With an exponent field at all, the infinities have two places. -/
theorem extended_eq_of_rank (wide : 0 < f.expBits) (number : f.isNan a = false)
    (number' : f.isNan b = false)
    (same : f.rank a = f.rank b) : f.extended a = f.extended b := by
  have apart : (0 : ℤ) < f.top := by
    have two : 1 < 2 ^ f.expBits := Nat.one_lt_two_pow wide.ne'
    have positive : 0 < f.top := Nat.mul_pos (by omega) (by positivity)
    exact_mod_cast positive
  rcases extended_cases number with ⟨low, place⟩ | ⟨high, place⟩ | ⟨finite, above, below⟩
  · rcases extended_cases number' with ⟨low', place'⟩ | ⟨high', place'⟩ | ⟨finite', above', below'⟩
    · rw [low, low']
    · omega
    · omega
  · rcases extended_cases number' with ⟨low', place'⟩ | ⟨high', place'⟩ | ⟨finite', above', below'⟩
    · omega
    · rw [high, high']
    · omega
  · rcases extended_cases number' with ⟨low', place'⟩ | ⟨high', place'⟩ | ⟨finite', above', below'⟩
    · omega
    · omega
    · rw [finite, finite', value_scaled, value_scaled, same]

/-- Numbers are ordered by their places. -/
theorem extended_le (wide : 0 < f.expBits) (number : f.isNan a = false)
    (number' : f.isNan b = false) :
    f.extended a ≤ f.extended b ↔ f.rank a ≤ f.rank b := by
  rcases lt_trichotomy (f.rank a) (f.rank b) with less | same | more
  · exact iff_of_true (extended_lt_of_rank number number' less).le less.le
  · exact iff_of_true (extended_eq_of_rank wide number number' same).le same.le
  · exact iff_of_false (extended_lt_of_rank number' number more).not_ge more.not_ge

theorem extended_lt (wide : 0 < f.expBits) (number : f.isNan a = false)
    (number' : f.isNan b = false) :
    f.extended a < f.extended b ↔ f.rank a < f.rank b := by
  rw [← not_le, extended_le wide number' number, not_le]

theorem extended_inj (wide : 0 < f.expBits) (number : f.isNan a = false)
    (number' : f.isNan b = false) :
    f.extended a = f.extended b ↔ f.rank a = f.rank b := by
  rw [le_antisymm_iff, extended_le wide number number', extended_le wide number' number,
    ← le_antisymm_iff]

theorem le_iff (wide : 0 < f.expBits) :
    f.le a b = true ↔ f.isNan a = false ∧ f.isNan b = false ∧ f.extended a ≤ f.extended b := by
  unfold le
  cases number : f.isNan a with
  | true => simp
  | false =>
    cases number' : f.isNan b with
    | true => simp
    | false => simp [extended_le wide number number']

theorem lt_iff (wide : 0 < f.expBits) :
    f.lt a b = true ↔ f.isNan a = false ∧ f.isNan b = false ∧ f.extended a < f.extended b := by
  unfold lt
  cases number : f.isNan a with
  | true => simp
  | false =>
    cases number' : f.isNan b with
    | true => simp
    | false => simp [extended_lt wide number number']

theorem eq_iff (wide : 0 < f.expBits) :
    f.eq a b = true ↔ f.isNan a = false ∧ f.isNan b = false ∧ f.extended a = f.extended b := by
  unfold eq
  cases number : f.isNan a with
  | true => simp
  | false =>
    cases number' : f.isNan b with
    | true => simp
    | false => simp [extended_inj wide number number']

end Extended

end Format

end Ieee
