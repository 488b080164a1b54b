import KeyCustody.Text.Graphic
import KeyCustody.Text.Hex

namespace KeyCustody.Text.Escaped

/-! # Texts in quotes

A text is shown between double quotes with every character visible: what has no glyph is
written as an escape. -/

/-- The digits of a number in lowercase hexadecimal, without leading zeros. -/
def hexDigits (number : Nat) : List Char :=
  if number < 16 then [Hex.digit number]
  else hexDigits (number / 16) ++ [Hex.digit (number % 16)]

def character (c : Char) : List Char :=
  if c = '\t' then ['\\', 't']
  else if c = '\n' then ['\\', 'n']
  else if c = '\r' then ['\\', 'r']
  else if c.toNat = 0 then ['\\', '0']
  else if c = '"' ∨ c = '\\' then ['\\', c]
  else if isGraphic c then [c]
  else ['\\', 'u', '\x7b'] ++ hexDigits c.toNat ++ ['\x7d']

def quote (text : String) : String :=
  "\"" ++ String.ofList (text.toList.flatMap character) ++ "\""

end KeyCustody.Text.Escaped
