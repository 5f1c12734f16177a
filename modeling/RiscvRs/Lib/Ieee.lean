import Mathlib

/-! Binary interchange formats read from their bit patterns: the classes of a
datum, its order, its sign change and its truncation to an integer. -/

namespace Ieee

/-- Field widths of a format: one sign bit, then exponent, then fraction. -/
structure Format where
  expBits : Nat
  fracBits : Nat
deriving DecidableEq, Repr

def single : Format := ⟨8, 23⟩

def double : Format := ⟨11, 52⟩

namespace Format

variable (f : Format)

def isNegative (bits : Nat) : Bool := bits / 2 ^ (f.expBits + f.fracBits) % 2 == 1

def exponent (bits : Nat) : Nat := bits / 2 ^ f.fracBits % 2 ^ f.expBits

def fraction (bits : Nat) : Nat := bits % 2 ^ f.fracBits

/-- Exponent and fraction together: the order of magnitudes is their order. -/
def magnitude (bits : Nat) : Nat := bits % 2 ^ (f.expBits + f.fracBits)

def isNan (bits : Nat) : Bool := f.exponent bits == 2 ^ f.expBits - 1 && f.fraction bits != 0

def isInfinite (bits : Nat) : Bool := f.exponent bits == 2 ^ f.expBits - 1 && f.fraction bits == 0

def isZero (bits : Nat) : Bool := f.magnitude bits == 0

def isSubnormal (bits : Nat) : Bool := f.exponent bits == 0 && f.fraction bits != 0

/-- The place of a datum that is not a NaN on the number line; both zeros share one place. -/
def rank (bits : Nat) : Int :=
  if f.isNegative bits then -(f.magnitude bits : Int) else f.magnitude bits

def lt (a b : Nat) : Bool := !f.isNan a && !f.isNan b && decide (f.rank a < f.rank b)

def le (a b : Nat) : Bool := !f.isNan a && !f.isNan b && decide (f.rank a ≤ f.rank b)

def eq (a b : Nat) : Bool := !f.isNan a && !f.isNan b && decide (f.rank a = f.rank b)

def bias : Nat := 2 ^ (f.expBits - 1) - 1

/-- The integer part of the magnitude of a finite datum. -/
def truncMagnitude (bits : Nat) : Nat :=
  let significand := f.fraction bits + if f.exponent bits = 0 then 0 else 2 ^ f.fracBits
  let scale := max (f.exponent bits) 1
  if f.bias + f.fracBits ≤ scale then significand * 2 ^ (scale - (f.bias + f.fracBits))
  else significand / 2 ^ (f.bias + f.fracBits - scale)

/-- Truncate toward zero and saturate; a NaN becomes zero. -/
def toIntSaturating (low high : Int) (bits : Nat) : Int :=
  if f.isNan bits then 0
  else if f.isInfinite bits then (if f.isNegative bits then low else high)
  else
    let exact : Int := f.truncMagnitude bits
    max low (min high (if f.isNegative bits then -exact else exact))

end Format

end Ieee
