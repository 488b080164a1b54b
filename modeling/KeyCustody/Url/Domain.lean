import KeyCustody.Signing.Percent
import KeyCustody.Text.Split
import KeyCustody.Url.Punycode

namespace KeyCustody.Url.Domain

/-! # Domain names

A name is brought to lowercase and its labels to ASCII. Signs that have a meaning in a URL
must not stand in it. -/

/-- Full-width forms of ASCII characters lie this far from them. -/
def wideShift : Nat := 0xFEE0

/-- A character without its case and width. Other full stops count as dots, and characters
that only govern how a text is set are left out. -/
def fold (c : Char) : Option Char :=
  let code := c.toNat
  if code = 0x3002 ∨ code = 0xFF0E ∨ code = 0xFF61 then some '.'
  else if code = 0xAD ∨ code = 0x200B ∨ code = 0x2060 ∨ code = 0xFEFF then none
  else if 0xFF01 ≤ code ∧ code ≤ 0xFF5E then some (Char.ofNat (code - wideShift)).toLower
  else if (0xC0 ≤ code ∧ code ≤ 0xDE ∧ code ≠ 0xD7) ∨ (0x391 ≤ code ∧ code ≤ 0x3A9) ∨
      (0x410 ≤ code ∧ code ≤ 0x42F) then some (Char.ofNat (code + 0x20))
  else if 0x400 ≤ code ∧ code ≤ 0x40F then some (Char.ofNat (code + 0x50))
  else some c.toLower

def forbidden : List Char := "%#/:<>?@[\\]^|".toList

/-- Whether a name may hold a character. -/
def isAllowed (c : Char) : Bool :=
  0x20 < c.toNat && c.toNat != 0x7F && c.toNat != 0xFFFD && !forbidden.contains c

def label (text : List Char) : List Char :=
  if text.all Punycode.isBasic then text else "xn--".toList ++ Punycode.encode text

/-- The octets of a text in which octets may be percent-encoded. A percent sign without two
digits stands for itself. -/
def octetsOf : List Char → Bytes
  | [] => []
  | '%' :: high :: low :: rest =>
      match Text.Hex.value? high, Text.Hex.value? low with
      | some high, some low => (high * 16 + low).toUInt8 :: octetsOf rest
      | _, _ => 0x25 :: octetsOf (high :: low :: rest)
  | c :: rest => Text.Utf8.encodeChar c ++ octetsOf rest

/-- The name that a text in a URL stands for. -/
def read (text : List Char) : Option (List Char) := do
  let name := (← Text.Utf8.decode? (octetsOf text)).filterMap fold
  if name.all isAllowed then pure (Text.joinFields '.' ((Text.fields '.' name).map label))
  else none

end KeyCustody.Url.Domain
