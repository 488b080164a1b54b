import KeyCustody.Text.Split

namespace KeyCustody.Text

/-! # Pieces between separators

Cutting at a separator is the inverse of joining with it. What ends the joined text ends the
last piece, and a mark without the separator occurs in a joined text only within a piece. -/

variable {separator : Char} {mark text piece : List Char} {pieces : List (List Char)}

theorem fields_eq_splitOn (separator : Char) (text : List Char) :
    fields separator text = text.splitOn separator := by
  induction text with
  | nil => rfl
  | cons c rest induction =>
      rw [fields, List.splitOn_cons_eq_if_modifyHead, induction]
      simp only [beq_iff_eq]
      split
      · rfl
      · cases cut : rest.splitOn separator with
        | nil => exact absurd cut (List.splitOn_ne_nil separator rest)
        | cons piece pieces => rfl

theorem fields_append_cons (separator : Char) (before after : List Char) :
    fields separator (before ++ separator :: after) =
      fields separator before ++ fields separator after := by
  simp only [fields_eq_splitOn, List.splitOn_append_cons_self]

theorem joinFields_eq_intercalate (separator : Char) (pieces : List (List Char)) :
    joinFields separator pieces = [separator].intercalate pieces := by
  induction pieces with
  | nil => rfl
  | cons piece rest induction =>
      cases rest with
      | nil => rw [joinFields, List.intercalate_singleton]
      | cons next others =>
          have joined : joinFields separator (piece :: next :: others) =
              piece ++ separator :: joinFields separator (next :: others) := rfl
          rw [joined, induction, List.intercalate_cons_cons, List.append_assoc,
            List.singleton_append]

theorem fields_joinFields (nonempty : pieces ≠ []) (absent : ∀ piece ∈ pieces, separator ∉ piece) :
    fields separator (joinFields separator pieces) = pieces := by
  rw [fields_eq_splitOn, joinFields_eq_intercalate, List.splitOn_intercalate _ absent nonempty]

theorem cons_joinFields_append (separator : Char) (before : List (List Char)) (more : pieces ≠ []) :
    separator :: joinFields separator (before ++ pieces) =
      before.flatMap (separator :: ·) ++ separator :: joinFields separator pieces := by
  induction before with
  | nil => rfl
  | cons piece before induction =>
      obtain ⟨next, others, split⟩ :=
        List.exists_cons_of_ne_nil (List.append_ne_nil_of_right_ne_nil before more)
      rw [List.flatMap_cons, List.append_assoc, ← induction, List.cons_append, split, joinFields]
      · rfl
      · simp

theorem toList_joinWith (separator : Char) (texts : List String) :
    (joinWith (String.singleton separator) texts).toList =
      [separator].intercalate (texts.map String.toList) := by
  rw [joinWith, String.toList_intercalate, String.toList_singleton]

theorem mem_intercalate {c : Char} {between : List Char} (member : c ∈ between.intercalate pieces) :
    c ∈ between ∨ ∃ piece ∈ pieces, c ∈ piece := by
  induction pieces with
  | nil => cases member
  | cons first rest induction =>
      cases rest with
      | nil =>
          rw [List.intercalate_singleton] at member
          exact .inr ⟨first, List.mem_cons_self, member⟩
      | cons second others =>
          rw [List.intercalate_cons_cons, List.mem_append, List.mem_append] at member
          rcases member with (inFirst | inBetween) | later
          · exact .inr ⟨first, List.mem_cons_self, inFirst⟩
          · exact .inl inBetween
          · rcases induction later with inBetween | ⟨piece, found, inside⟩
            · exact .inl inBetween
            · exact .inr ⟨piece, List.mem_cons_of_mem first found, inside⟩

theorem getLast?_intercalate {c : Char} (differs : c ≠ separator) :
    ([separator].intercalate pieces).getLast? = some c ↔
      ∃ piece, pieces.getLast? = some piece ∧ piece.getLast? = some c := by
  induction pieces with
  | nil => simp
  | cons first rest induction =>
      cases rest with
      | nil => simp
      | cons second others =>
          rw [List.getLast?_cons_cons, ← induction, List.intercalate_cons_cons,
            List.append_assoc, List.singleton_append, List.getLast?_append, List.getLast?_cons]
          cases ([separator].intercalate (second :: others)).getLast? with
          | none => simpa using Ne.symm differs
          | some last => simp

/-- A mark without the separator lies on one side of it. -/
theorem infix_append_separator {before after : List Char} (marked : mark ≠ [])
    (absent : separator ∉ mark) (occurs : mark <:+: before ++ separator :: after) :
    mark <:+: before ∨ mark <:+: after := by
  obtain ⟨start, rest, whole⟩ := occurs
  rw [List.append_assoc] at whole
  rcases List.append_eq_append_iff.mp whole with ⟨left, rfl, split⟩ | ⟨skipped, -, split⟩
  · refine .inl ?_
    rcases List.append_eq_append_iff.mp split with ⟨further, rfl, -⟩ | ⟨crossing, rfl, last⟩
    · exact ⟨start, further, List.append_assoc _ _ _⟩
    · cases crossing with
      | nil => exact ⟨start, [], by simp⟩
      | cons c others =>
          cases last
          exact absurd (List.mem_append_right _ List.mem_cons_self) absent
  · cases skipped with
    | nil =>
        obtain ⟨c, others, rfl⟩ := List.exists_cons_of_ne_nil marked
        cases split
        exact absurd List.mem_cons_self absent
    | cons c skipped =>
        cases split
        exact .inr ⟨skipped, rest, List.append_assoc _ _ _⟩

theorem infix_intercalate (marked : mark ≠ []) (absent : separator ∉ mark)
    (occurs : mark <:+: [separator].intercalate pieces) : ∃ piece ∈ pieces, mark <:+: piece := by
  induction pieces with
  | nil => exact absurd (List.infix_nil.mp occurs) marked
  | cons first rest induction =>
      cases rest with
      | nil =>
          rw [List.intercalate_singleton] at occurs
          exact ⟨first, List.mem_cons_self, occurs⟩
      | cons second others =>
          rw [List.intercalate_cons_cons, List.append_assoc] at occurs
          rcases infix_append_separator marked absent occurs with here | later
          · exact ⟨first, List.mem_cons_self, here⟩
          · obtain ⟨piece, member, inside⟩ := induction later
            exact ⟨piece, List.mem_cons_of_mem _ member, inside⟩

theorem isInfix_intercalate (member : piece ∈ pieces) :
    piece <:+: [separator].intercalate pieces := by
  induction pieces with
  | nil => cases member
  | cons first rest induction =>
      cases rest with
      | nil =>
          cases List.mem_singleton.mp member
          simp
      | cons second others =>
          rw [List.intercalate_cons_cons, List.append_assoc]
          rcases List.mem_cons.mp member with rfl | later
          · exact List.infix_append_left
          · exact (induction later).trans (List.infix_append_right.trans List.infix_append_right)

theorem isInfix_of_mem_fields (member : piece ∈ fields separator text) : piece <:+: text := by
  rw [fields_eq_splitOn] at member
  have whole : [separator].intercalate (text.splitOn separator) = text :=
    List.intercalate_splitOn separator
  rw [← whole]
  exact isInfix_intercalate member

theorem mem_fields_or_eq (separator : Char) {c : Char} (member : c ∈ text) :
    c = separator ∨ ∃ piece ∈ fields separator text, c ∈ piece := by
  induction text with
  | nil => cases member
  | cons d rest induction =>
      obtain ⟨first, others, split⟩ := List.exists_cons_of_ne_nil (fields_ne_nil separator rest)
      rw [fields, split]
      rw [split] at induction
      by_cases cut : d = separator
      · rcases List.mem_cons.mp member with rfl | later
        · exact .inl cut
        · simpa [cut] using induction later
      · rcases List.mem_cons.mp member with rfl | later
        · simp [cut]
        · refine (induction later).imp_right ?_
          rintro ⟨piece, found, inside⟩
          rw [if_neg cut]
          rcases List.mem_cons.mp found with rfl | other
          · exact ⟨_, List.mem_cons_self, List.mem_cons_of_mem _ inside⟩
          · exact ⟨piece, List.mem_cons_of_mem _ other, inside⟩

theorem separator_not_mem (member : piece ∈ fields separator text) : separator ∉ piece := by
  induction text generalizing piece with
  | nil => simp_all [fields]
  | cons c rest induction =>
      rw [fields] at member
      by_cases cut : c = separator
      · rw [if_pos cut] at member
        rcases List.mem_cons.mp member with rfl | later
        · exact List.not_mem_nil
        · exact induction later
      · rw [if_neg cut] at member
        obtain ⟨first, others, split⟩ := List.exists_cons_of_ne_nil (fields_ne_nil separator rest)
        rw [split] at member induction
        rcases List.mem_cons.mp member with rfl | later
        · have absent := induction List.mem_cons_self
          simp [absent, Ne.symm cut]
        · exact induction (List.mem_cons_of_mem _ later)

end KeyCustody.Text
