namespace KeyCustody.Url.Punycode

/-! # Punycode

A label with characters beyond ASCII is written in ASCII: its ASCII characters, a hyphen,
and then the others in the order of their codes. For each of them a number tells how many
steps of insertion lie between it and the one before. -/

def isBasic (c : Char) : Bool := c.toNat < 128

/-- A digit to the base 36: letters, then decimal digits. -/
def digit (value : Nat) : Char :=
  if value < 26 then Char.ofNat (97 + value) else Char.ofNat (22 + value)

/-- The least value at a place that is followed by a further digit. -/
def threshold (bias place : Nat) : Nat := max 1 (min 26 (place - bias))

/-- A number in digits whose base differs from place to place. -/
def digits (bias place number : Nat) : List Char :=
  let least := threshold bias place
  if number < least then [digit number]
  else
    digit (least + (number - least) % (36 - least)) ::
      digits bias (place + 36) ((number - least) / (36 - least))
termination_by number
decreasing_by
  have positive : 1 ≤ threshold bias place := Nat.le_max_left ..
  have quotient := Nat.div_le_self (number - threshold bias place) (36 - threshold bias place)
  omega

/-- Divides a number until it is small, and counts the places this takes. -/
def shrink (number places : Nat) : Nat × Nat :=
  if 455 < number then shrink (number / 35) (places + 36) else (number, places)
termination_by number
decreasing_by omega

/-- The bias after a number was written, the `count`-th character being placed by it. -/
def adapt (number count : Nat) (first : Bool) : Nat :=
  let damped := if first then number / 700 else number / 2
  let (small, places) := shrink (damped + damped / count) 0
  places + 36 * small / (small + 38)

structure Progress where
  written : List Char
  steps : Nat
  bias : Nat
  placed : Nat

/-- Passes over one character while those with the code `code` are placed. -/
def pass (basic code : Nat) (progress : Progress) (c : Char) : Progress :=
  if c.toNat < code then { progress with steps := progress.steps + 1 }
  else if c.toNat = code then
    ⟨progress.written ++ digits progress.bias 36 progress.steps, 0,
      adapt progress.steps (progress.placed + 1) (progress.placed = basic), progress.placed + 1⟩
  else progress

/-- Places the characters of the codes given, `next` being the least code still open. -/
def place (text : List Char) (basic : Nat) : List Nat → Nat → Progress → List Char
  | [], _, progress => progress.written
  | code :: codes, next, progress =>
      let reached := { progress with
        steps := progress.steps + (code - next) * (progress.placed + 1) }
      let passed := text.foldl (pass basic code) reached
      place text basic codes (code + 1) { passed with steps := passed.steps + 1 }

/-- The codes beyond ASCII in a text, in order, each once. -/
def codes (text : List Char) : List Nat :=
  (((text.filter fun c => !isBasic c).map Char.toNat).mergeSort fun a b => a ≤ b).eraseReps

def encode (text : List Char) : List Char :=
  let basic := text.filter isBasic
  let front := if basic.isEmpty then [] else basic ++ ['-']
  front ++ place text basic.length (codes text) 128 ⟨[], 0, 72, basic.length⟩

end KeyCustody.Url.Punycode
