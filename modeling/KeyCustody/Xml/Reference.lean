import KeyCustody.Text.Hex
import KeyCustody.Text.Split

namespace KeyCustody.Xml.Reference

/-! # References to characters

Within text an ampersand starts a reference, which ends in a semicolon: one of five names,
or the code of a character in decimal or hexadecimal. -/

def named (name : List Char) : Option Char :=
  [("lt", '<'), ("gt", '>'), ("amp", '&'), ("quot", '"'), ("apos", '\'')].lookup
    (String.ofList name)

/-- The character with a code. Codes of surrogates are no characters. -/
def coded (base : Nat) (digits : List Char) : Option Char := do
  if digits.isEmpty then none
  else
    let code ← digits.foldlM
      (fun code c => do
        let value ← Text.Hex.value? c
        if value < base then pure (code * base + value) else none) 0
    if code < 0xD800 ∨ (0xDFFF < code ∧ code < 0x110000) then some (Char.ofNat code) else none

def character (reference : List Char) : Option Char :=
  match reference with
  | '#' :: 'x' :: digits => coded 16 digits
  | '#' :: digits => coded 10 digits
  | name => named name

/-- The characters of a piece that starts with a reference. -/
def piece (text : List Char) : Option (List Char) := do
  let (reference, rest) ← Text.breakAt [';'] text
  pure ((← character reference) :: rest)

/-- The text that a text with references stands for. -/
def resolve (text : List Char) : Option (List Char) :=
  match Text.fields '&' text with
  | [] => some []
  | front :: pieces => do
      let resolved ← pieces.mapM piece
      pure (front ++ resolved.flatten)

end KeyCustody.Xml.Reference
