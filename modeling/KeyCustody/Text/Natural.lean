namespace KeyCustody.Text

/-! # Natural numbers in text -/

def digitValue? (c : Char) : Option Nat :=
  if '0' ≤ c ∧ c ≤ '9' then some (c.toNat - 48) else none

/-- The value of a text of decimal digits, taken on from `value`. -/
def digitsFrom (value : Nat) : List Char → Option Nat
  | [] => some value
  | c :: rest => do digitsFrom (value * 10 + (← digitValue? c)) rest

/-- A natural number: one or more digits, after at most one plus sign. -/
def natural? : List Char → Option Nat
  | [] => none
  | '+' :: [] => none
  | '+' :: rest => digitsFrom 0 rest
  | text => digitsFrom 0 text

end KeyCustody.Text
