import KeyCustody.Json.Document
import KeyCustody.Json.Value

namespace KeyCustody.Json

/-! # The value of a number as written

A number without fraction and exponent that fits 64 bits is a whole number. Any other is
a binary64 magnitude: its digits are taken into a 64-bit significand as long as they fit,
digits that no longer fit count only by their place, and the significand is then scaled
once by a power of ten. A number beyond the greatest magnitude has no value. -/

def significandLimit : Nat := Nat.pow 2 64

/-- Takes whole digits into the significand, and counts those that no longer fit. -/
def absorbWhole (significand : Nat) : List Nat → Nat × Nat
  | [] => (significand, 0)
  | digit :: rest =>
      if significandLimit ≤ significand * 10 + digit then (significand, rest.length + 1)
      else absorbWhole (significand * 10 + digit) rest

/-- Takes fraction digits into the significand until one no longer fits, and counts those
taken. -/
def absorbFraction (significand : Nat) : List Nat → Nat × Nat
  | [] => (significand, 0)
  | digit :: rest =>
      if significandLimit ≤ significand * 10 + digit then (significand, 0)
      else
        let taken := absorbFraction (significand * 10 + digit) rest
        (taken.1, taken.2 + 1)

def digitsValue (digits : List Nat) : Nat :=
  digits.foldl (fun value digit => value * 10 + digit) 0

/-- The value of a number, or nothing for one that is out of range. -/
def Numeral.value? (numeral : Numeral) : Option Number :=
  let (whole, dropped) := absorbWhole 0 numeral.whole
  if numeral.isWhole ∧ dropped = 0 ∧ ¬ numeral.negative then some (.integer whole)
  else if numeral.isWhole ∧ dropped = 0 ∧ 0 < whole ∧ whole ≤ Nat.pow 2 63 then
    some (.integer (-(whole : Int)))
  else
    let (significand, taken) := absorbFraction whole numeral.fraction
    let shift : Int :=
      match numeral.exponent with
      | none => 0
      | some (true, digits) => -(digitsValue digits : Int)
      | some (false, digits) => digitsValue digits
    (Decimal.scaled significand ((dropped : Int) - taken + shift)).map
      (Number.real numeral.negative)

end KeyCustody.Json
