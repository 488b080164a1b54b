namespace KeyCustody.Decimal

/-! # Finite binary64 magnitudes in exact integer arithmetic

A magnitude is `significand * 2 ^ exponent` with a significand below `2 ^ 53` and an
exponent of at least `-1074`. `nearest` rounds a quotient of two naturals to the
closest magnitude, a tie to the even significand; products and quotients of
magnitudes are formed exactly and rounded once. -/

structure Magnitude where
  significand : Nat
  exponent : Int
  deriving DecidableEq, Repr

namespace Magnitude

def leastExponent : Int := -1074

def greatestExponent : Int := 971

def zero : Magnitude := ⟨0, leastExponent⟩

def isZero (x : Magnitude) : Bool := x.significand = 0

/-- The whole number closest to `numerator / denominator`, a tie to the even one. -/
def roundDiv (numerator denominator : Nat) : Nat :=
  let floor := numerator / denominator
  let twice := 2 * (numerator % denominator)
  if twice < denominator then floor
  else if denominator < twice then floor + 1
  else floor + floor % 2

/-- `numerator / denominator` in units of `2 ^ exponent`, as a fraction. -/
def inUnits (numerator denominator : Nat) (exponent : Int) : Nat × Nat :=
  if 0 ≤ exponent then (numerator, denominator * Nat.pow 2 exponent.toNat)
  else (numerator * Nat.pow 2 (-exponent).toNat, denominator)

/-- The exponent at which the whole part of the quotient has 53 bits, but not less than
the least one. -/
def unitExponent (numerator denominator : Nat) : Int :=
  let guess : Int := (numerator.log2 : Int) - denominator.log2 - 52
  let fraction := inUnits numerator denominator guess
  let fitted := if fraction.1 / fraction.2 < Nat.pow 2 52 then guess - 1 else guess
  max fitted leastExponent

/-- The magnitude closest to a quotient, or nothing beyond the greatest finite one. -/
def nearest (numerator denominator : Nat) : Option Magnitude :=
  if numerator = 0 then some zero
  else
    let exponent := unitExponent numerator denominator
    let fraction := inUnits numerator denominator exponent
    let rounded := roundDiv fraction.1 fraction.2
    let result : Magnitude :=
      if rounded = Nat.pow 2 53 then ⟨Nat.pow 2 52, exponent + 1⟩ else ⟨rounded, exponent⟩
    if greatestExponent < result.exponent then none else some result

/-- The magnitude as an exact quotient. -/
def fraction (x : Magnitude) : Nat × Nat :=
  if 0 ≤ x.exponent then (x.significand * Nat.pow 2 x.exponent.toNat, 1)
  else (x.significand, Nat.pow 2 (-x.exponent).toNat)

def times (x y : Magnitude) : Option Magnitude :=
  nearest (x.fraction.1 * y.fraction.1) (x.fraction.2 * y.fraction.2)

/-- `y` is not zero. -/
def dividedBy (x y : Magnitude) : Option Magnitude :=
  nearest (x.fraction.1 * y.fraction.2) (x.fraction.2 * y.fraction.1)

end Magnitude

/-- The magnitude closest to a power of ten. -/
def powerOfTen (power : Nat) : Option Magnitude :=
  Magnitude.nearest (Nat.pow 10 power) 1

/-- A whole significand scaled by a power of ten: the significand and the power are each
rounded to a magnitude, and so is the one product or quotient of the two. Below `10 ^ -308`
the scaling takes two quotients, and below `10 ^ -616` nothing is left. -/
def scaled (significand : Nat) (power : Int) : Option Magnitude := do
  let base ← Magnitude.nearest significand 1
  if base.isZero then pure base
  else if 308 < power then none
  else if 0 ≤ power then base.times (← powerOfTen power.toNat)
  else if -308 ≤ power then base.dividedBy (← powerOfTen (-power).toNat)
  else if -616 ≤ power then
    let small ← base.dividedBy (← powerOfTen 308)
    small.dividedBy (← powerOfTen (-power - 308).toNat)
  else pure Magnitude.zero

end KeyCustody.Decimal
