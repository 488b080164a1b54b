import KeyCustody.Text.Utf8

namespace KeyCustody.Text.Hex

/-! # Octets in hexadecimal -/

def digit (value : Nat) : Char :=
  if value < 10 then Char.ofNat (48 + value) else Char.ofNat (87 + value)

/-- Two lowercase digits for each octet. -/
def encode (octets : Bytes) : String :=
  String.ofList (octets.flatMap fun octet => [digit (octet.toNat / 16), digit (octet.toNat % 16)])

def value? (c : Char) : Option Nat :=
  if '0' ≤ c ∧ c ≤ '9' then some (c.toNat - 48)
  else if 'a' ≤ c ∧ c ≤ 'f' then some (c.toNat - 87)
  else if 'A' ≤ c ∧ c ≤ 'F' then some (c.toNat - 55)
  else none

/-- The octets that pairs of digits stand for. -/
def decode? : List Char → Option Bytes
  | [] => some []
  | [_] => none
  | high :: low :: rest => do
      let octet := (← value? high) * 16 + (← value? low)
      pure (octet.toUInt8 :: (← decode? rest))

end KeyCustody.Text.Hex
