import KeyCustody.Text.Escaped
import KeyCustody.Text.Split

namespace KeyCustody.Url

/-! # Numeric hosts

Four octets or eight pieces of sixteen bits. The octets may be written with fewer numbers,
of which the last one fills the rest, and in octal or hexadecimal. -/

namespace V4

def numberIn (base : Nat) (digits : List Char) : Option Nat :=
  digits.foldlM
    (fun number c => do
      let value ← Text.Hex.value? c
      if value < base then pure (number * base + value) else none) 0

/-- One of the numbers. The base shows at its front; a front without digits is zero. -/
def number? : List Char → Option Nat
  | [] => none
  | '0' :: 'x' :: rest => numberIn 16 rest
  | '0' :: 'X' :: rest => numberIn 16 rest
  | '0' :: c :: rest => numberIn 8 (c :: rest)
  | text => numberIn 10 text

/-- The parts between dots, without an empty one at the end. -/
def parts (text : List Char) : List (List Char) :=
  let parts := Text.fields '.' text
  if 1 < parts.length ∧ parts.getLast? = some [] then parts.dropLast else parts

/-- Whether a host has to be an address, since its last part is a number. -/
def isNumeric (text : List Char) : Bool :=
  match (parts text).getLast? with
  | none => false
  | some last => (!last.isEmpty && last.all Char.isDigit) || (number? last).isSome

/-- The value of the leading numbers, each of them one octet. -/
def leading (value : Nat) : List Nat → Option Nat
  | [] => some value
  | number :: rest => if number < 256 then leading (value * 256 + number) rest else none

def read (text : List Char) : Option Nat := do
  let numbers ← (parts text).mapM number?
  let last ← numbers.getLast?
  let front := numbers.dropLast
  if 3 < front.length then none
  else
    let span := Nat.pow 256 (4 - front.length)
    if span ≤ last then none else pure ((← leading 0 front) * span + last)

def octets (value : Nat) : List Nat :=
  [value / Nat.pow 256 3, value / Nat.pow 256 2 % 256, value / 256 % 256, value % 256]

def text (value : Nat) : String := Text.joinWith "." ((octets value).map toString)

end V4

namespace V6

/-- Pieces of one half, between colons. Only the last piece may be octets with dots. -/
def half? : List (List Char) → Option (List Nat)
  | [] => some []
  | [piece] =>
      if piece.contains '.' then do
        let numbers := Text.fields '.' piece
        let octets ← numbers.mapM fun number =>
          if number.isEmpty ∨ (1 < number.length ∧ number.head? = some '0') then none
          else V4.numberIn 10 number
        match octets with
        | [a, b, c, d] =>
            if octets.all (· < 256) then some [a * 256 + b, c * 256 + d] else none
        | _ => none
      else
        if piece.isEmpty ∨ 4 < piece.length then none
        else (V4.numberIn 16 piece).map fun value => [value]
  | piece :: rest => do
      if piece.isEmpty ∨ 4 < piece.length then none
      else pure ((← V4.numberIn 16 piece) :: (← half? rest))

def pieces? (text : List Char) : Option (List Nat) :=
  if text.isEmpty then some [] else half? (Text.fields ':' text)

/-- The eight pieces. Two colons stand for all pieces that are missing. -/
def read (text : List Char) : Option (List Nat) :=
  match Text.breakAt [':', ':'] text with
  | none => do
      let pieces ← pieces? text
      if pieces.length = 8 then some pieces else none
  | some (front, back) => do
      if front.contains '.' then none
      else
        let front ← pieces? front
        let back ← pieces? back
        let missing := 8 - (front.length + back.length)
        if missing = 0 then none else pure (front ++ List.replicate missing 0 ++ back)

/-- The length of the run of zeros at the front. -/
def zeros (pieces : List Nat) : Nat := (pieces.takeWhile (· = 0)).length

/-- The longest run of zeros, the first of several: where it starts and how long it is. -/
def longestRun : Nat → List Nat → Nat × Nat
  | _, [] => (0, 0)
  | start, piece :: rest =>
      let here := zeros (piece :: rest)
      let later := longestRun (start + 1) rest
      if later.2 ≤ here then (start, here) else later

def pieceTexts (pieces : List Nat) : String :=
  Text.joinWith ":" (pieces.map fun piece => String.ofList (Text.Escaped.hexDigits piece))

/-- The address in brackets, with two colons for the longest run of two zeros or more. -/
def text (pieces : List Nat) : String :=
  let (start, length) := longestRun 0 pieces
  let inner :=
    if length < 2 then pieceTexts pieces
    else pieceTexts (pieces.take start) ++ "::" ++ pieceTexts (pieces.drop (start + length))
  "[" ++ inner ++ "]"

end V6

end KeyCustody.Url
