import KeyCustody.Text.Split

namespace KeyCustody.Text

/-! # Replacement

A text in which a mark does not occur is left as it is, and a mark at the start of a text
is taken out before anything else is read. So a text from which a mark was taken out is
shorter exactly if the mark occurs in it. -/

variable {mark replacement text : List Char}

theorem replaceFrom_eq_drop (count : Nat) :
    replaceFrom mark replacement count text = replaceAll mark replacement (text.drop count) := by
  induction count generalizing text with
  | zero => rfl
  | succ count induction =>
      cases text with
      | nil => rfl
      | cons c rest => exact induction

theorem replaceAll_append (marked : mark ≠ []) (rest : List Char) :
    replaceAll mark replacement (mark ++ rest) = replacement ++ replaceAll mark replacement rest := by
  obtain ⟨c, others, rfl⟩ := List.exists_cons_of_ne_nil marked
  have starts : (c :: others).isPrefixOf (c :: (others ++ rest)) = true :=
    List.isPrefixOf_iff_prefix.mpr (List.prefix_append (c :: others) rest)
  rw [replaceAll, List.cons_append, replaceFrom, if_pos starts, replaceFrom_eq_drop]
  simp

theorem replaceAll_cons {c : Char} {rest : List Char}
    (differs : ¬ mark <+: c :: rest) :
    replaceAll mark replacement (c :: rest) = c :: replaceAll mark replacement rest := by
  have starts : ¬ mark.isPrefixOf (c :: rest) = true := fun starts =>
    differs (List.isPrefixOf_iff_prefix.mp starts)
  rw [replaceAll, replaceFrom, if_neg starts, replaceAll]

theorem replaceAll_of_not_infix (absent : ¬ mark <:+: text) :
    replaceAll mark replacement text = text := by
  induction text with
  | nil => rfl
  | cons c rest induction =>
      have differs : ¬ mark <+: c :: rest := fun starts => absent starts.isInfix
      have restAbsent : ¬ mark <:+: rest := fun occurs =>
        absent (occurs.trans (List.suffix_cons c rest).isInfix)
      rw [replaceAll_cons differs, induction restAbsent]

theorem length_replaceAll_nil_le (mark text : List Char) :
    (replaceAll mark [] text).length ≤ text.length := by
  suffices bound : ∀ count, (replaceFrom mark [] count text).length ≤ text.length from bound 0
  induction text with
  | nil =>
      intro count
      cases count <;> exact Nat.le_refl 0
  | cons c rest induction =>
      intro count
      cases count with
      | succ count => exact Nat.le_succ_of_le (induction count)
      | zero =>
          rw [replaceFrom]
          split
          · exact Nat.le_succ_of_le (induction _)
          · exact Nat.succ_le_succ (induction 0)

theorem length_replaceAll_nil_lt (marked : mark ≠ []) (occurs : mark <:+: text) :
    (replaceAll mark [] text).length < text.length := by
  induction text with
  | nil => exact absurd (List.infix_nil.mp occurs) marked
  | cons c rest induction =>
      by_cases starts : mark <+: c :: rest
      · obtain ⟨others, whole⟩ := starts
        have lengths := congrArg List.length whole
        have positive := List.length_pos_iff.mpr marked
        have bound := length_replaceAll_nil_le mark others
        rw [← whole, replaceAll_append marked, List.nil_append]
        simp only [List.length_append] at lengths ⊢
        omega
      · rw [replaceAll_cons starts]
        rcases List.infix_cons_iff.mp occurs with starting | later
        · exact absurd starting starts
        · exact Nat.succ_lt_succ (induction later)

theorem replaceAll_nil_eq_iff (marked : mark ≠ []) :
    replaceAll mark [] text = text ↔ ¬ mark <:+: text := by
  constructor
  · intro same occurs
    have shorter := length_replaceAll_nil_lt marked occurs
    rw [same] at shorter
    exact Nat.lt_irrefl _ shorter
  · exact replaceAll_of_not_infix

end KeyCustody.Text
