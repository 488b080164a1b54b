import KeyCustody.Text.Utf8
import Mathlib.Tactic.SplitIfs

namespace KeyCustody.Text

/-! # Octets read back

Reading takes the octets of a character off the front as that character, whatever follows. So the
octets of a text are read back as that text. -/

namespace Utf8

theorem toNat_toUInt8 {code : Nat} (bound : code < 256) : code.toUInt8.toNat = code := by
  simpa using bound

theorem follow_cons {following least greatest code next : Nat} (low : least ≤ next)
    (high : next ≤ greatest) (bound : greatest < 256) (rest : Bytes) :
    follow (following + 1) least greatest code (next.toUInt8 :: rest) =
      follow following 0x80 0xBF (code * 0x40 + (next - 0x80)) rest := by
  rw [follow, toNat_toUInt8 (by omega), if_pos ⟨low, high⟩]

theorem step_of_lead {first : Nat} {lead : Lead} (bound : first < 256)
    (found : lead? first = some lead) (rest : Bytes) :
    step first.toUInt8 rest = follow lead.following lead.least lead.greatest lead.share rest := by
  rw [step, toNat_toUInt8 bound, found]

theorem step_two {code : Nat} (least : 0x80 ≤ code) (greatest : code < 0x800) (rest : Bytes) :
    step (0xC0 + code / 0x40).toUInt8 ((0x80 + code % 0x40).toUInt8 :: rest) =
      .character code rest := by
  have lead : lead? (0xC0 + code / 0x40) = some ⟨1, 0x80, 0xBF, code / 0x40⟩ := by
    grind [lead?]
  have whole : code / 0x40 * 0x40 + (0x80 + code % 0x40 - 0x80) = code := by omega
  rw [step_of_lead (by omega) lead]
  dsimp only
  rw [follow_cons (by omega) (by omega) (by omega), follow, whole]

/-- Not every second octet may follow the first and the last of the leads: these are the codes that
are too small for three octets and the surrogates. -/
theorem step_three {code : Nat} (least : 0x800 ≤ code) (greatest : code < 0x10000)
    (valid : code < 0xD800 ∨ 0xDFFF < code) (rest : Bytes) :
    step (0xE0 + code / 0x1000).toUInt8
        ((0x80 + code / 0x40 % 0x40).toUInt8 :: (0x80 + code % 0x40).toUInt8 :: rest) =
      .character code rest := by
  obtain ⟨low, high, lead, lower, upper, bound⟩ : ∃ low high,
      lead? (0xE0 + code / 0x1000) = some ⟨2, low, high, code / 0x1000⟩ ∧
        low ≤ 0x80 + code / 0x40 % 0x40 ∧ 0x80 + code / 0x40 % 0x40 ≤ high ∧ high < 256 := by
    by_cases first : code / 0x1000 = 0
    · exact ⟨0xA0, 0xBF, by grind [lead?], by omega, by omega, by omega⟩
    by_cases last : code / 0x1000 = 0xD
    · exact ⟨0x80, 0x9F, by grind [lead?], by omega, by omega, by omega⟩
    · exact ⟨0x80, 0xBF, by grind [lead?], by omega, by omega, by omega⟩
  have whole : (code / 0x1000 * 0x40 + (0x80 + code / 0x40 % 0x40 - 0x80)) * 0x40 +
      (0x80 + code % 0x40 - 0x80) = code := by omega
  rw [step_of_lead (by omega) lead, follow_cons lower upper bound,
    follow_cons (by omega) (by omega) (by omega), follow, whole]

theorem step_four {code : Nat} (least : 0x10000 ≤ code) (greatest : code < 0x110000)
    (rest : Bytes) :
    step (0xF0 + code / 0x40000).toUInt8 ((0x80 + code / 0x1000 % 0x40).toUInt8 ::
        (0x80 + code / 0x40 % 0x40).toUInt8 :: (0x80 + code % 0x40).toUInt8 :: rest) =
      .character code rest := by
  obtain ⟨low, high, lead, lower, upper, bound⟩ : ∃ low high,
      lead? (0xF0 + code / 0x40000) = some ⟨3, low, high, code / 0x40000⟩ ∧
        low ≤ 0x80 + code / 0x1000 % 0x40 ∧ 0x80 + code / 0x1000 % 0x40 ≤ high ∧ high < 256 := by
    by_cases first : code / 0x40000 = 0
    · exact ⟨0x90, 0xBF, by grind [lead?], by omega, by omega, by omega⟩
    by_cases last : code / 0x40000 = 4
    · exact ⟨0x80, 0x8F, by grind [lead?], by omega, by omega, by omega⟩
    · exact ⟨0x80, 0xBF, by grind [lead?], by omega, by omega, by omega⟩
  have whole : ((code / 0x40000 * 0x40 + (0x80 + code / 0x1000 % 0x40 - 0x80)) * 0x40 +
      (0x80 + code / 0x40 % 0x40 - 0x80)) * 0x40 + (0x80 + code % 0x40 - 0x80) = code := by omega
  rw [step_of_lead (by omega) lead, follow_cons lower upper bound,
    follow_cons (by omega) (by omega) (by omega), follow_cons (by omega) (by omega) (by omega),
    follow, whole]

/-- An octet below 0x80 is a character of its own. -/
theorem toNat_of_mem_encodeChar {c : Char} {octet : UInt8} (member : octet ∈ encodeChar c) :
    octet.toNat = c.toNat ∨ 0x80 ≤ octet.toNat := by
  have valid : c.toNat < 0xD800 ∨ 0xDFFF < c.toNat ∧ c.toNat < 0x110000 := c.valid
  rw [encodeChar] at member
  generalize c.toNat = code at valid member ⊢
  split_ifs at member <;> simp only [List.mem_cons, List.not_mem_nil, or_false] at member
  · rw [member, toNat_toUInt8 (by omega)]
    exact .inl rfl
  · rcases member with rfl | rfl <;> rw [toNat_toUInt8 (by omega)] <;> omega
  · rcases member with rfl | rfl | rfl <;> rw [toNat_toUInt8 (by omega)] <;> omega
  · rcases member with rfl | rfl | rfl | rfl <;> rw [toNat_toUInt8 (by omega)] <;> omega

/-- The octets of a character are taken off together. -/
theorem step_encodeChar (c : Char) : ∃ octet octets, encodeChar c = octet :: octets ∧
    ∀ rest, step octet (octets ++ rest) = .character c.toNat rest := by
  have valid : c.toNat < 0xD800 ∨ 0xDFFF < c.toNat ∧ c.toNat < 0x110000 := c.valid
  rw [encodeChar]
  generalize c.toNat = code at valid
  split
  · have lead : lead? code = some ⟨0, 0x80, 0xBF, code⟩ := by grind [lead?]
    exact ⟨_, _, rfl, fun rest => step_of_lead (by omega) lead rest⟩
  split
  · exact ⟨_, _, rfl, fun rest => step_two (by omega) (by omega) rest⟩
  split
  · exact ⟨_, _, rfl, fun rest => step_three (by omega) (by omega) (by omega) rest⟩
  · exact ⟨_, _, rfl, fun rest => step_four (by omega) (by omega) rest⟩

theorem decode?_encode (text : List Char) : decode? (encode text) = some text := by
  induction text with
  | nil => rw [encode, List.flatMap_nil, decode?]
  | cons c rest induction =>
      obtain ⟨octet, octets, first, taken⟩ := step_encodeChar c
      rw [encode] at induction
      rw [encode, List.flatMap_cons, first, List.cons_append, decode?]
      split
      · rename_i code after found
        rw [taken] at found
        cases found
        rw [induction, Option.map_some, Char.ofNat_toNat]
      · rename_i after found
        rw [taken] at found
        cases found

end Utf8

theorem ofOctets?_encode (text : List Char) :
    ofOctets? (Utf8.encode text) = some (String.ofList text) := by
  rw [ofOctets?, Utf8.decode?_encode, Option.map_some]

end KeyCustody.Text
