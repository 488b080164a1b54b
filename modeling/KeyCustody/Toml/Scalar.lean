import KeyCustody.Decimal.Binary64
import KeyCustody.Text.Hex
import KeyCustody.Toml.Value

namespace KeyCustody.Toml

/-! # Strings, numbers and dates

Each reader takes the characters it needs off the front and gives back the rest. -/

def isSpace (c : Char) : Bool := c = ' ' || c = '\t'

def skipSpace (text : List Char) : List Char := text.dropWhile isSpace

/-- The text after a line ending at the front. -/
def newline? : List Char → Option (List Char)
  | '\n' :: rest => some rest
  | '\r' :: '\n' :: rest => some rest
  | _ => none

/-- Characters of comments and strings: all but controls, with the tab. -/
def isPlain (c : Char) : Bool := c = '\t' || (32 ≤ c.toNat && c.toNat ≠ 127)

/-- Puts a character in front of a text read further on. -/
def prepend (c : Char) (read : Option (List Char × List Char)) : Option (List Char × List Char) :=
  read.map fun result => (c :: result.1, result.2)

/-- The character with a code in hexadecimal digits. -/
def scalar? (digits : List Char) : Option Char := do
  let code ← digits.foldlM (fun code digit => (Text.Hex.value? digit).map (code * 16 + ·)) 0
  if code < 0xD800 ∨ (0xDFFF < code ∧ code < 0x110000) then pure (Char.ofNat code) else none

def shortEscape? (c : Char) : Option Char :=
  if c = 'b' then some (Char.ofNat 8)
  else if c = 't' then some '\t'
  else if c = 'n' then some '\n'
  else if c = 'f' then some (Char.ofNat 12)
  else if c = 'r' then some '\r'
  else if c = '"' ∨ c = '\\' then some c
  else none

/-- A string after its opening quote. -/
def basicString : List Char → Option (List Char × List Char)
  | [] => none
  | '"' :: rest => some ([], rest)
  | '\\' :: 'u' :: a :: b :: c :: d :: rest => do
      prepend (← scalar? [a, b, c, d]) (basicString rest)
  | '\\' :: 'U' :: a :: b :: c :: d :: e :: f :: g :: h :: rest => do
      prepend (← scalar? [a, b, c, d, e, f, g, h]) (basicString rest)
  | '\\' :: letter :: rest => do prepend (← shortEscape? letter) (basicString rest)
  | c :: rest => if isPlain c ∧ c ≠ '\\' then prepend c (basicString rest) else none

/-- Whether nothing but blanks stands before the end of the line. -/
def endsLine (text : List Char) : Bool := (newline? (skipSpace text)).isSome

/-- A string of several lines after its opening quotes. After a backslash at the end of a
line, `skipping` holds until the next character that is no blank. -/
def longString (skipping : Bool) : List Char → Option (List Char × List Char)
  | [] => none
  | '"' :: '"' :: '"' :: '"' :: '"' :: rest => some (['"', '"'], rest)
  | '"' :: '"' :: '"' :: '"' :: rest => some (['"'], rest)
  | '"' :: '"' :: '"' :: rest => some ([], rest)
  | '\r' :: '\n' :: rest =>
      if skipping then longString true rest else prepend '\n' (longString false rest)
  | '\\' :: 'u' :: a :: b :: c :: d :: rest => do
      prepend (← scalar? [a, b, c, d]) (longString false rest)
  | '\\' :: 'U' :: a :: b :: c :: d :: e :: f :: g :: h :: rest => do
      prepend (← scalar? [a, b, c, d, e, f, g, h]) (longString false rest)
  | '\\' :: letter :: rest =>
      if endsLine (letter :: rest) then longString true (letter :: rest)
      else do prepend (← shortEscape? letter) (longString false rest)
  | c :: rest =>
      if skipping ∧ (isSpace c ∨ c = '\n') then longString true rest
      else if c = '\n' ∨ (isPlain c ∧ c ≠ '\\') then prepend c (longString false rest)
      else none

/-- A string in single quotes after the opening one. -/
def literalString : List Char → Option (List Char × List Char)
  | [] => none
  | '\'' :: rest => some ([], rest)
  | c :: rest => if isPlain c then prepend c (literalString rest) else none

/-- A string of several lines in single quotes after the opening ones. -/
def longLiteral : List Char → Option (List Char × List Char)
  | [] => none
  | '\'' :: '\'' :: '\'' :: '\'' :: '\'' :: rest => some (['\'', '\''], rest)
  | '\'' :: '\'' :: '\'' :: '\'' :: rest => some (['\''], rest)
  | '\'' :: '\'' :: '\'' :: rest => some ([], rest)
  | '\r' :: '\n' :: rest => prepend '\n' (longLiteral rest)
  | c :: rest => if c = '\n' ∨ isPlain c then prepend c (longLiteral rest) else none

/-- A line ending right after the opening quotes is not part of the string. -/
def dropFirstLine (text : List Char) : List Char := (newline? text).getD text

/-- A string of any kind. -/
def string : List Char → Option (List Char × List Char)
  | '"' :: '"' :: '"' :: rest => longString false (dropFirstLine rest)
  | '"' :: rest => basicString rest
  | '\'' :: '\'' :: '\'' :: rest => longLiteral (dropFirstLine rest)
  | '\'' :: rest => literalString rest
  | _ => none

/-- Digits, of which two may have one underscore between them. -/
def digitsMore (isDigit : Char → Bool) : List Char → List Char × List Char
  | [] => ([], [])
  | '_' :: c :: rest =>
      if isDigit c then
        let (digits, after) := digitsMore isDigit rest
        (c :: digits, after)
      else ([], '_' :: c :: rest)
  | c :: rest =>
      if isDigit c then
        let (digits, after) := digitsMore isDigit rest
        (c :: digits, after)
      else ([], c :: rest)

def digits (isDigit : Char → Bool) : List Char → Option (List Char × List Char)
  | [] => none
  | c :: rest =>
      if isDigit c then
        let (more, after) := digitsMore isDigit rest
        some (c :: more, after)
      else none

/-- The digits before the point of a number. A leading zero stands alone. -/
def wholeDigits : List Char → Option (List Char × List Char)
  | '0' :: rest => some (['0'], rest)
  | text => digits Char.isDigit text

def numberOf (base : Nat) (digits : List Char) : Nat :=
  digits.foldl (fun number digit => number * base + (Text.Hex.value? digit).getD 0) 0

/-- The magnitude that whole numbers must not pass. -/
def wholeBound : Nat := Nat.pow 2 63

/-- Whole numbers have 64 bits with a sign. -/
def integer? (value : Int) : Option Value :=
  if -(wholeBound : Int) ≤ value ∧ value < wholeBound then some (.integer value) else none

/-- Reals must not be too large. -/
def real? (negative : Bool) (digits : List Char) (exponent : Int) : Option Value :=
  let significant := digits.dropWhile (· = '0')
  let magnitude := (significant.length : Int) + exponent
  if negative ∨ significant.isEmpty ∨ magnitude ≤ 308 then some .real
  else if 309 < magnitude then none
  else
    let number := numberOf 10 significant
    let quotient : Nat × Nat :=
      if 0 ≤ exponent then (number * Nat.pow 10 exponent.toNat, 1)
      else (number, Nat.pow 10 (-exponent).toNat)
    (Decimal.Magnitude.nearest quotient.1 quotient.2).map fun _ => .real

/-- The exponent of a real after its letter. -/
def exponentOf (text : List Char) : Option (Int × List Char) :=
  let (negative, unsigned) : Bool × List Char :=
    match text with
    | '+' :: rest => (false, rest)
    | '-' :: rest => (true, rest)
    | _ => (false, text)
  (digits Char.isDigit unsigned).map fun (found, rest) =>
    (if negative then -(numberOf 10 found : Int) else numberOf 10 found, rest)

/-- The exponent of a real, if its letter is there. -/
def exponentPart : List Char → Option (Int × List Char)
  | 'e' :: rest => exponentOf rest
  | 'E' :: rest => exponentOf rest
  | text => some (0, text)

/-- A number after its sign. -/
def decimalNumber (negative : Bool) (text : List Char) : Option (Value × List Char) := do
  let (whole, rest) ← wholeDigits text
  match rest with
  | '.' :: rest => do
      let (fraction, rest) ← digits Char.isDigit rest
      let (exponent, rest) ← exponentPart rest
      pure (← real? negative (whole ++ fraction) (exponent - fraction.length), rest)
  | 'e' :: _ | 'E' :: _ => do
      let (exponent, rest) ← exponentPart rest
      pure (← real? negative whole exponent, rest)
  | _ =>
      let value := numberOf 10 whole
      pure (← integer? (if negative then -(value : Int) else value), rest)

def isOctal (c : Char) : Bool := '0' ≤ c && c ≤ '7'

def isBinary (c : Char) : Bool := c = '0' || c = '1'

def isHexDigit (c : Char) : Bool := (Text.Hex.value? c).isSome

/-- A whole number in another base, after what names the base. -/
def basedNumber (base : Nat) (isDigit : Char → Bool) (text : List Char) :
    Option (Value × List Char) := do
  let (found, rest) ← digits isDigit text
  pure (← integer? (numberOf base found), rest)

def twoDigits : List Char → Option (Nat × List Char)
  | a :: b :: rest =>
      if a.isDigit && b.isDigit then some (numberOf 10 [a, b], rest) else none
  | _ => none

def daysOfMonth (year month : Nat) : Nat :=
  if month = 2 then
    if year % 4 = 0 ∧ (year % 100 ≠ 0 ∨ year % 400 = 0) then 29 else 28
  else if month = 4 ∨ month = 6 ∨ month = 9 ∨ month = 11 then 30
  else 31

/-- The characters after a date. -/
def afterDate (text : List Char) : Option (List Char) := do
  let (century, rest) ← twoDigits text
  let (yearOfCentury, rest) ← twoDigits rest
  match rest with
  | '-' :: rest => do
      let (month, rest) ← twoDigits rest
      match rest with
      | '-' :: rest => do
          let (day, rest) ← twoDigits rest
          if 1 ≤ month ∧ month ≤ 12 ∧ 1 ≤ day ∧
              day ≤ daysOfMonth (century * 100 + yearOfCentury) month then pure rest
          else none
      | _ => none
  | _ => none

/-- The characters after a time of day. -/
def afterTime (text : List Char) : Option (List Char) := do
  let (hour, rest) ← twoDigits text
  match rest with
  | ':' :: rest => do
      let (minute, rest) ← twoDigits rest
      match rest with
      | ':' :: rest => do
          let (second, rest) ← twoDigits rest
          if 23 < hour ∨ 59 < minute ∨ 60 < second then none
          else
            match rest with
            | '.' :: digit :: rest =>
                if digit.isDigit then pure (rest.dropWhile Char.isDigit)
                else pure ('.' :: digit :: rest)
            | _ => pure rest
      | _ => none
  | _ => none

/-- The characters after the hours and minutes of an offset. -/
def afterHours (text : List Char) : Option (List Char) := do
  let (hour, rest) ← twoDigits text
  match rest with
  | ':' :: rest => do
      let (minute, rest) ← twoDigits rest
      if 23 < hour ∨ 59 < minute then none else pure rest
  | _ => none

/-- The characters after an offset, or all of them without one. -/
def afterOffset (text : List Char) : List Char :=
  match text with
  | 'Z' :: rest => rest
  | 'z' :: rest => rest
  | '+' :: rest => (afterHours rest).getD text
  | '-' :: rest => (afterHours rest).getD text
  | _ => text

/-- The characters after a date, a time, or both. -/
def afterDateTime (text : List Char) : Option (List Char) :=
  match afterDate text with
  | none => afterTime text
  | some rest =>
      match rest with
      | [] => some []
      | c :: time =>
          if c = 'T' ∨ c = 't' ∨ c = ' ' then
            match afterTime time with
            | some rest => some (afterOffset rest)
            | none => some rest
          else some rest

/-- Whether a word that names a real stands at the front. -/
def wordAfter (word : List Char) (text : List Char) (value : Value) : Option (Value × List Char) :=
  (word.isPrefixOf? text).map fun rest => (value, rest)

/-- A number without a sign, or one that is not decimal. -/
def unsignedNumber (text : List Char) : Option (Value × List Char) :=
  match text with
  | '0' :: 'x' :: rest => basedNumber 16 isHexDigit rest
  | '0' :: 'o' :: rest => basedNumber 8 isOctal rest
  | '0' :: 'b' :: rest => basedNumber 2 isBinary rest
  | _ => decimalNumber false text

/-- A number after a sign, which the words for infinity and for no number may have too. -/
def signedNumber (negative : Bool) (text : List Char) : Option (Value × List Char) :=
  match text with
  | 'i' :: _ => wordAfter ['i', 'n', 'f'] text .real
  | 'n' :: _ => wordAfter ['n', 'a', 'n'] text .real
  | _ => decimalNumber negative text

/-- A value that is no string, array or table. -/
def scalar (text : List Char) : Option (Value × List Char) :=
  match text with
  | 't' :: _ => wordAfter ['t', 'r', 'u', 'e'] text (.boolean true)
  | 'f' :: _ => wordAfter ['f', 'a', 'l', 's', 'e'] text (.boolean false)
  | 'i' :: _ => wordAfter ['i', 'n', 'f'] text .real
  | 'n' :: _ => wordAfter ['n', 'a', 'n'] text .real
  | '+' :: rest => signedNumber false rest
  | '-' :: rest => signedNumber true rest
  | _ =>
      match afterDateTime text with
      | some rest => some (.dateTime, rest)
      | none => unsignedNumber text

end KeyCustody.Toml
