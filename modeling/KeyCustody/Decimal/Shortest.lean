import KeyCustody.Decimal.Binary64

namespace KeyCustody.Decimal

/-! # The shortest decimal that reads back as a magnitude

The reals that round to a magnitude form an interval, with its ends included when the
significand is even. For each count of digits the two decimals next to the magnitude
are tried; the first count with a hit wins, and of two hits the nearer one. -/

/-- The whole number `digits` times `10 ^ exponent`. -/
structure Digits where
  digits : Nat
  exponent : Int
  deriving DecidableEq, Repr

/-- Twice the bounds and twice the value, all over one denominator: lower, value, upper.
The gap below a power of two is half as wide as the gap above it. -/
structure Interval where
  lower : Nat
  value : Nat
  upper : Nat
  denominator : Nat
  closed : Bool

def Interval.of (x : Magnitude) : Interval :=
  let narrow := x.significand = Nat.pow 2 52 ∧ Magnitude.leastExponent < x.exponent
  let unit : Nat × Nat :=
    if 0 ≤ x.exponent then (Nat.pow 2 x.exponent.toNat, 1) else (1, Nat.pow 2 (-x.exponent).toNat)
  { lower := (4 * x.significand - (if narrow then 1 else 2)) * unit.1
    value := 4 * x.significand * unit.1
    upper := (4 * x.significand + 2) * unit.1
    denominator := 4 * unit.2
    closed := x.significand % 2 = 0 }

/-- A decimal lies among the reals that round to the magnitude. -/
def Interval.holds (interval : Interval) (candidate : Digits) : Bool :=
  let scaledUp : Nat × Nat :=
    if 0 ≤ candidate.exponent then
      (candidate.digits * Nat.pow 10 candidate.exponent.toNat * interval.denominator, 1)
    else (candidate.digits * interval.denominator, Nat.pow 10 (-candidate.exponent).toNat)
  let least := interval.lower * scaledUp.2
  let greatest := interval.upper * scaledUp.2
  if interval.closed then least ≤ scaledUp.1 && scaledUp.1 ≤ greatest
  else least < scaledUp.1 && scaledUp.1 < greatest

/-- The decimals with the given exponent next to the value, from below and from above,
and whether the lower one is at least as near. -/
def Interval.neighbours (interval : Interval) (exponent : Int) : Digits × Digits × Bool :=
  let ratio : Nat × Nat :=
    if 0 ≤ exponent then (interval.value, interval.denominator * Nat.pow 10 exponent.toNat)
    else (interval.value * Nat.pow 10 (-exponent).toNat, interval.denominator)
  let below := ratio.1 / ratio.2
  (⟨below, exponent⟩, ⟨below + 1, exponent⟩, 2 * (ratio.1 % ratio.2) ≤ ratio.2)

/-- Tries the exponents from `exponent` down, one more digit each time. -/
def Interval.search (interval : Interval) : Nat → Int → Digits
  | 0, exponent => (interval.neighbours exponent).1
  | tries + 1, exponent =>
      let (below, above, lowerNearer) := interval.neighbours exponent
      let first := if lowerNearer then below else above
      let second := if lowerNearer then above else below
      if 0 < first.digits && interval.holds first then first
      else if 0 < second.digits && interval.holds second then second
      else interval.search tries (exponent - 1)

/-- The exponent of ten of the first significant digit is at most this. -/
def decimalExponentBound (x : Magnitude) : Int :=
  ((x.significand.log2 : Int) + x.exponent + 1) * 30103 / 100000 + 1

/-- The shortest decimal that reads back as `x`, which is not zero. -/
def shortest (x : Magnitude) : Digits :=
  (Interval.of x).search 24 (decimalExponentBound x)

/-- Where a decimal is written without an exponent, and how its exponent is written. -/
structure Style where
  leastPositional : Int
  greatestPositional : Int
  positiveSign : String

/-- Plain notation for a decimal point at most four zeros before and sixteen digits after
the start, always with a fraction; otherwise an exponent with its sign. -/
def documentStyle : Style := ⟨-4, 16, "+"⟩

def zeros (count : Nat) : String := String.ofList (List.replicate count '0')

/-- The text of a decimal in a style. -/
def Digits.text (decimal : Digits) (style : Style) : String :=
  let digits := toString decimal.digits
  let point : Int := digits.length + decimal.exponent
  if style.leastPositional ≤ point ∧ point ≤ style.greatestPositional then
    if 0 ≤ decimal.exponent then digits ++ zeros decimal.exponent.toNat ++ ".0"
    else if 0 < point then
      let cut := digits.toList.splitAt point.toNat
      String.ofList cut.1 ++ "." ++ String.ofList cut.2
    else "0." ++ zeros (-point).toNat ++ digits
  else
    let mantissa :=
      match digits.toList with
      | first :: second :: rest => String.ofList (first :: '.' :: second :: rest)
      | _ => digits
    let power := point - 1
    mantissa ++ "e" ++ (if 0 ≤ power then style.positiveSign else "") ++ toString power

/-- The text of a magnitude in a style. -/
def Magnitude.text (x : Magnitude) (style : Style) : String :=
  if x.isZero then "0.0" else (shortest x).text style

end KeyCustody.Decimal
