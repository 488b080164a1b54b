import KeyCustody.Text.Hex
import KeyCustody.Text.Split

namespace KeyCustody.Signing.Percent

/-! # Percent-encoding

Letters, digits and `-_.~` stand for themselves; every other octet is `%` and two
uppercase digits. A path is encoded between its slashes. -/

def isUnreserved (octet : UInt8) : Bool :=
  (0x41 ≤ octet && octet ≤ 0x5A) || (0x61 ≤ octet && octet ≤ 0x7A) ||
    (0x30 ≤ octet && octet ≤ 0x39) ||
    octet == 0x2D || octet == 0x5F || octet == 0x2E || octet == 0x7E

def digit (value : Nat) : Char :=
  if value < 10 then Char.ofNat (48 + value) else Char.ofNat (55 + value)

def encodeOctet (octet : UInt8) : List Char :=
  if isUnreserved octet then [Char.ofNat octet.toNat]
  else ['%', digit (octet.toNat / 16), digit (octet.toNat % 16)]

def encodeSegment (segment : List Char) : List Char :=
  (Text.Utf8.encode segment).flatMap encodeOctet

def encodePath (path : List Char) : List Char :=
  Text.joinFields '/' ((Text.fields '/' path).map encodeSegment)

/-- The octets of an encoded text. -/
def decode? : List Char → Option Bytes
  | [] => some []
  | '%' :: high :: low :: rest => do
      let octet := (← Text.Hex.value? high) * 16 + (← Text.Hex.value? low)
      pure (octet.toUInt8 :: (← decode? rest))
  | '%' :: _ => none
  | c :: rest => do pure (Text.Utf8.encodeChar c ++ (← decode? rest))

end KeyCustody.Signing.Percent
