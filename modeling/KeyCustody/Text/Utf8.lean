namespace KeyCustody

/-- Octets in order. -/
abbrev Bytes := List UInt8

end KeyCustody

namespace KeyCustody.Text

namespace Utf8

/-! # UTF-8: writing, strict reading, and reading with replacement

Reading takes one character off the front. Where the octets form no character, the
longest start of one that they do form is what a lossy reading replaces by U+FFFD. -/

/-- The octets of one character. -/
def encodeChar (c : Char) : Bytes :=
  let code := c.toNat
  if code < 0x80 then [code.toUInt8]
  else if code < 0x800 then [(0xC0 + code / 0x40).toUInt8, (0x80 + code % 0x40).toUInt8]
  else if code < 0x10000 then
    [(0xE0 + code / 0x1000).toUInt8, (0x80 + code / 0x40 % 0x40).toUInt8,
      (0x80 + code % 0x40).toUInt8]
  else
    [(0xF0 + code / 0x40000).toUInt8, (0x80 + code / 0x1000 % 0x40).toUInt8,
      (0x80 + code / 0x40 % 0x40).toUInt8, (0x80 + code % 0x40).toUInt8]

def encode (text : List Char) : Bytes := text.flatMap encodeChar

/-- What an initial octet promises: how many octets follow, the bounds of the first of
them, and its own share of the code point. -/
structure Lead where
  following : Nat
  least : Nat
  greatest : Nat
  share : Nat

def lead? (octet : Nat) : Option Lead :=
  if octet < 0x80 then some ⟨0, 0x80, 0xBF, octet⟩
  else if octet < 0xC2 then none
  else if octet < 0xE0 then some ⟨1, 0x80, 0xBF, octet - 0xC0⟩
  else if octet = 0xE0 then some ⟨2, 0xA0, 0xBF, 0⟩
  else if octet = 0xED then some ⟨2, 0x80, 0x9F, 0xD⟩
  else if octet < 0xF0 then some ⟨2, 0x80, 0xBF, octet - 0xE0⟩
  else if octet = 0xF0 then some ⟨3, 0x90, 0xBF, 0⟩
  else if octet < 0xF4 then some ⟨3, 0x80, 0xBF, octet - 0xF0⟩
  else if octet = 0xF4 then some ⟨3, 0x80, 0x8F, 4⟩
  else none

/-- One step of reading: a character or a broken start, with the octets after it. -/
inductive Step where
  | character (code : Nat) (rest : Bytes)
  | broken (rest : Bytes)

/-- Reads the octets that a lead still promises. -/
def follow : Nat → Nat → Nat → Nat → Bytes → Step
  | 0, _, _, code, rest => .character code rest
  | _ + 1, _, _, _, [] => .broken []
  | following + 1, least, greatest, code, octet :: rest =>
      if least ≤ octet.toNat ∧ octet.toNat ≤ greatest then
        follow following 0x80 0xBF (code * 0x40 + (octet.toNat - 0x80)) rest
      else .broken (octet :: rest)

def step (octet : UInt8) (rest : Bytes) : Step :=
  match lead? octet.toNat with
  | none => .broken rest
  | some lead => follow lead.following lead.least lead.greatest lead.share rest

/-- The octets after a step, whatever it found. -/
def Step.rest : Step → Bytes
  | .character _ rest => rest
  | .broken rest => rest

theorem follow_rest_length (following least greatest code : Nat) (octets : Bytes) :
    (follow following least greatest code octets).rest.length ≤ octets.length := by
  induction following generalizing least greatest code octets with
  | zero => simp [follow, Step.rest]
  | succ following induction =>
      cases octets with
      | nil => simp [follow, Step.rest]
      | cons octet rest =>
          rw [follow]
          split
          · exact Nat.le_trans (induction _ _ _ rest) (by simp)
          · simp [Step.rest]

theorem step_rest_length (octet : UInt8) (rest : Bytes) :
    (step octet rest).rest.length ≤ rest.length := by
  rw [step]
  split
  · simp [Step.rest]
  · exact follow_rest_length ..

theorem rest_length_lt {octet : UInt8} {octets : Bytes} {taken : Step}
    (found : step octet octets = taken) : taken.rest.length < (octet :: octets).length := by
  rw [← found, List.length_cons]
  exact Nat.lt_succ_of_le (step_rest_length octet octets)

/-- The characters of well-formed octets, and nothing for other octets. -/
def decode? : Bytes → Option (List Char)
  | [] => some []
  | octet :: octets =>
      match _ : step octet octets with
      | .character code rest =>
          (decode? rest).map (Char.ofNat code :: ·)
      | .broken _ => none
termination_by octets => octets.length
decreasing_by
  all_goals exact rest_length_lt ‹_›

/-- The characters of any octets, with U+FFFD for each broken start. -/
def decodeLossy : Bytes → List Char
  | [] => []
  | octet :: octets =>
      match _ : step octet octets with
      | .character code rest =>
          Char.ofNat code :: decodeLossy rest
      | .broken rest =>
          Char.ofNat 0xFFFD :: decodeLossy rest
termination_by octets => octets.length
decreasing_by
  all_goals exact rest_length_lt ‹_›

end Utf8

/-- The UTF-8 octets of a text. -/
def octets (text : String) : Bytes := Utf8.encode text.toList

/-- The text whose UTF-8 octets these are. -/
def ofOctets? (octets : Bytes) : Option String :=
  (Utf8.decode? octets).map String.ofList

/-- The text of the octets, with U+FFFD where they are not UTF-8. -/
def ofOctetsLossy (octets : Bytes) : String :=
  String.ofList (Utf8.decodeLossy octets)

end KeyCustody.Text
