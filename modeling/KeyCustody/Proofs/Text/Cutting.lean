import KeyCustody.Text.Split
import Mathlib.Data.List.Basic

namespace KeyCustody.Text

/-! # Cutting at a mark

The pieces around the last occurrence of a mark and the mark itself make up the text again,
and no later occurrence starts. The first occurrence is where the mark's first character first
stands, if the mark stands there. -/

variable {mark text before after : List Char}

theorem not_mem_takeWhile (c : Char) (text : List Char) : c ∉ text.takeWhile (· ≠ c) := by
  intro member
  have allowed := List.all_eq_true.mp List.all_takeWhile _ member
  simp at allowed

theorem eq_takeWhile_append {c d : Char} (cut : text.dropWhile (· ≠ c) = d :: after) :
    text = text.takeWhile (· ≠ c) ++ c :: after := by
  have found : d = c := by
    have first := List.head?_dropWhile_not (· ≠ c) text
    rw [cut] at first
    simpa using first
  have whole := List.takeWhile_append_dropWhile (p := (· ≠ c)) (l := text)
  rw [cut, found] at whole
  exact whole.symm

theorem breakAtLast_eq_none_iff (marked : mark ≠ []) :
    breakAtLast mark text = none ↔ ¬ mark <:+: text := by
  induction text with
  | nil => simp [breakAtLast, marked]
  | cons c rest induction =>
      rw [breakAtLast, List.infix_cons_iff, not_or]
      cases found : breakAtLast mark rest with
      | some halves =>
          have occurs : mark <:+: rest := by
            refine Classical.byContradiction fun absent => ?_
            rw [induction.mpr absent] at found
            cases found
          simp [occurs]
      | none =>
          have absent : ¬ mark <:+: rest := induction.mp found
          simp only [Option.map_eq_none_iff, absent, not_false_eq_true, and_true]
          rw [← List.isPrefixOf_iff_prefix, ← List.isSome_isPrefixOf?_eq_isPrefixOf,
            Bool.not_eq_true, Option.isSome_eq_false_iff, Option.isNone_iff_eq_none]

theorem breakAtLast_eq_some (marked : mark ≠ [])
    (cut : breakAtLast mark text = some (before, after)) :
    text = before ++ (mark ++ after) ∧ ¬ mark <:+: (mark ++ after).tail := by
  induction text generalizing before after with
  | nil => simp [breakAtLast, marked] at cut
  | cons c rest induction =>
      rw [breakAtLast] at cut
      cases found : breakAtLast mark rest with
      | some halves =>
          simp only [found, Option.some.injEq, Prod.mk.injEq] at cut
          obtain ⟨rfl, rfl⟩ := cut
          obtain ⟨whole, last⟩ := induction found
          exact ⟨congrArg (c :: ·) whole, last⟩
      | none =>
          rw [found] at cut
          obtain ⟨after, starts, halves⟩ := Option.map_eq_some_iff.mp cut
          cases halves
          have whole := List.append_eq_of_isPrefixOf?_eq_some starts
          rw [whole]
          exact ⟨rfl, (breakAtLast_eq_none_iff marked).mp found⟩

theorem breakAtLast_append (marked : mark ≠ []) (last : ¬ mark <:+: (mark ++ after).tail) :
    breakAtLast mark (before ++ (mark ++ after)) = some (before, after) := by
  induction before with
  | nil =>
      obtain ⟨c, rest, rfl⟩ := List.exists_cons_of_ne_nil marked
      have later : breakAtLast (c :: rest) (rest ++ after) = none :=
        (breakAtLast_eq_none_iff marked).mpr last
      simp [breakAtLast, later]
  | cons d front induction =>
      rw [List.cons_append, breakAtLast, induction]

/-- No occurrence starts within a text without the mark's first character. -/
theorem breakAt_append_of_not_mem {c : Char} (absent : c ∉ before) (text : List Char) :
    breakAt (c :: mark) (before ++ text) =
      (breakAt (c :: mark) text).map fun halves => (before ++ halves.1, halves.2) := by
  induction before with
  | nil => simp
  | cons d rest induction =>
      rw [List.mem_cons, not_or] at absent
      have differs : (c :: mark).isPrefixOf? (d :: (rest ++ text)) = none := by
        simp [List.isPrefixOf?, absent.1]
      rw [List.cons_append, breakAt, differs]
      dsimp only
      rw [induction absent.2, Option.map_map]
      rfl

theorem breakAt_append {c : Char} (absent : c ∉ before) (after : List Char) :
    breakAt (c :: mark) (before ++ (c :: mark ++ after)) = some (before, after) := by
  have starts : (c :: mark).isPrefixOf? (c :: (mark ++ after)) = some after :=
    List.isPrefixOf?_eq_some_iff_append_eq.mpr rfl
  have here : breakAt (c :: mark) (c :: mark ++ after) = some ([], after) := by
    simp only [List.cons_append, breakAt, starts]
  rw [breakAt_append_of_not_mem absent, here, Option.map_some, List.append_nil]

/-- A text is cut back at the first place where a character stands. -/
theorem append_cons_inj {c : Char} {other otherAfter : List Char} (absent : c ∉ before)
    (otherAbsent : c ∉ other) :
    before ++ c :: after = other ++ c :: otherAfter ↔ before = other ∧ after = otherAfter := by
  refine ⟨fun same => ?_, fun ⟨front, rest⟩ => front ▸ rest ▸ rfl⟩
  have cut : breakAt [c] (before ++ ([c] ++ after)) = breakAt [c] (other ++ ([c] ++ otherAfter)) :=
    congrArg (breakAt [c]) same
  rw [breakAt_append absent, breakAt_append otherAbsent] at cut
  simpa using cut

theorem breakAt_eq_none_iff (marked : mark ≠ []) :
    breakAt mark text = none ↔ ¬ mark <:+: text := by
  induction text with
  | nil => simp [breakAt, marked]
  | cons c rest induction =>
      rw [breakAt, List.infix_cons_iff, not_or, ← List.isPrefixOf_iff_prefix,
        ← List.isSome_isPrefixOf?_eq_isPrefixOf]
      cases starts : mark.isPrefixOf? (c :: rest) with
      | some after => simp
      | none => simp [induction]

theorem infix_of_infix_append {c : Char} (absent : c ∉ before)
    (occurs : c :: mark <:+: before ++ after) : c :: mark <:+: after := by
  induction before with
  | nil => exact occurs
  | cons d rest induction =>
      rw [List.mem_cons, not_or] at absent
      rcases List.infix_cons_iff.mp occurs with starting | later
      · exact absurd (List.cons_prefix_cons.mp starting).1 absent.1
      · exact induction absent.2 later

theorem append_dropLast_isPrefix (before mark after : List Char) :
    before ++ mark.dropLast <+: before ++ (mark ++ after) := by
  rw [List.prefix_append_right_inj]
  exact (List.dropLast_prefix mark).trans (List.prefix_append mark after)

theorem prefix_dropLast (late : before ≠ []) (starts : mark <+: before ++ (mark ++ after)) :
    mark <+: before ++ mark.dropLast := by
  refine List.prefix_of_prefix_length_le starts (append_dropLast_isPrefix before mark after) ?_
  have positive := List.length_pos_iff.mpr late
  rw [List.length_append, List.length_dropLast]
  omega

/-- The first occurrence is the one before which no other starts. -/
theorem breakAt_eq_some_iff (marked : mark ≠ []) :
    breakAt mark text = some (before, after) ↔
      text = before ++ (mark ++ after) ∧ ¬ mark <:+: before ++ mark.dropLast := by
  induction text generalizing before with
  | nil => simp [breakAt, marked]
  | cons c rest induction =>
      rw [breakAt]
      cases starts : mark.isPrefixOf? (c :: rest) with
      | some others =>
          have whole := List.append_eq_of_isPrefixOf?_eq_some starts
          constructor
          · intro cut
            cases cut
            refine ⟨whole.symm, fun occurs => ?_⟩
            have lengths := occurs.length_le
            have positive := List.length_pos_iff.mpr marked
            simp only [List.nil_append, List.length_dropLast] at lengths
            omega
          · rintro ⟨split, earliest⟩
            cases before with
            | nil =>
                have same : others = after := List.append_cancel_left (whole.trans split)
                rw [same]
            | cons d front =>
                have starting : mark <+: d :: front ++ (mark ++ after) := ⟨others, whole.trans split⟩
                have early := prefix_dropLast (List.cons_ne_nil d front) starting
                exact absurd early.isInfix earliest
      | none =>
          have differs : ¬ mark <+: c :: rest := by
            rintro ⟨others, whole⟩
            rw [List.isPrefixOf?_eq_some_iff_append_eq.mpr whole] at starts
            cases starts
          constructor
          · intro cut
            obtain ⟨⟨front, back⟩, found, halves⟩ := Option.map_eq_some_iff.mp cut
            cases halves
            obtain ⟨rfl, earliest⟩ := induction.mp found
            refine ⟨rfl, fun occurs => ?_⟩
            rcases List.infix_cons_iff.mp occurs with starting | later
            · exact differs (starting.trans (append_dropLast_isPrefix (c :: front) mark back))
            · exact earliest later
          · rintro ⟨split, earliest⟩
            cases before with
            | nil => exact absurd ⟨after, split.symm⟩ differs
            | cons d front =>
                cases split
                have found := induction.mpr ⟨rfl, fun occurs => earliest (List.infix_cons occurs)⟩
                rw [found]
                rfl

end KeyCustody.Text
