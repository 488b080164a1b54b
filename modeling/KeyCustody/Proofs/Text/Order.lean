import KeyCustody.Text.Utf8

namespace KeyCustody.Text

/-! # The order of texts and of their octets

Texts are ordered by code points, and so are their UTF-8 octets: the octets of a smaller
character come before those of a greater one, whatever follows them. So no two texts have the same
octets. -/

namespace Utf8

theorem cons_octet_lt_iff {low high : Nat} (lowBound : low < 256) (highBound : high < 256)
    (left right : Bytes) :
    low.toUInt8 :: left < high.toUInt8 :: right ↔ low < high ∨ low = high ∧ left < right := by
  have lowValue : low.toUInt8.toNat = low := by simpa using lowBound
  have highValue : high.toUInt8.toNat = high := by simpa using highBound
  rw [List.cons_lt_cons_iff, UInt8.lt_iff_toNat_lt, ← UInt8.toNat_inj, lowValue, highValue]

theorem toNat_lt_limit (c : Char) : c.toNat < 0x110000 := by
  rcases c.valid with low | high
  · exact Nat.lt_trans low (by decide)
  · exact high.2

theorem encodeChar_append_lt {c d : Char} (less : c < d) (left right : Bytes) :
    encodeChar c ++ left < encodeChar d ++ right := by
  have codes : c.toNat < d.toNat := less
  have limit := toNat_lt_limit d
  unfold encodeChar
  generalize c.toNat = low at codes ⊢
  generalize d.toNat = high at codes limit ⊢
  dsimp only
  -- One case for each pair of lengths. The first octets that differ decide.
  repeat' split
  all_goals
    simp (disch := omega) only [List.cons_append, cons_octet_lt_iff]
    omega

theorem encodeChar_ne_nil (c : Char) : encodeChar c ≠ [] := by
  unfold encodeChar
  dsimp only
  repeat' split
  all_goals exact List.cons_ne_nil _ _

theorem encode_lt {left right : List Char} (less : left < right) : encode left < encode right := by
  induction right generalizing left with
  | nil => exact absurd less (List.not_lt_nil left)
  | cons d right induction =>
      cases left with
      | nil =>
          obtain ⟨octet, octets, first⟩ := List.exists_cons_of_ne_nil (encodeChar_ne_nil d)
          rw [encode, encode, List.flatMap_cons, first]
          exact List.nil_lt_cons octet _
      | cons c left =>
          rcases List.cons_lt_cons_iff.mp less with smaller | ⟨rfl, rest⟩
          · exact encodeChar_append_lt smaller _ _
          · exact List.append_left_lt (induction rest)

theorem encode_injective {left right : List Char} (same : encode left = encode right) :
    left = right := by
  have differs {first second : List Char} (less : first < second) :
      encode first ≠ encode second := fun equal => List.lt_irrefl _ (equal ▸ encode_lt less)
  refine List.le_antisymm (List.not_lt.mp fun less => ?_) (List.not_lt.mp fun less => ?_)
  · exact differs less same.symm
  · exact differs less same

end Utf8

theorem octets_lt {left right : String} (less : left < right) : octets left < octets right :=
  Utf8.encode_lt less

end KeyCustody.Text
