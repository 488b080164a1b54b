import KeyCustody.Text.Blank

namespace KeyCustody.Text

/-! # Blank ends

What is left of a text after trimming is solid at both ends, and a text that is solid at both
ends is left as it is. -/

variable {text : List Char}

theorem head?_dropWhile_isBlank {c : Char} (first : c ∈ (text.dropWhile isBlank).head?) :
    isBlank c = false := by
  have solid := List.head?_dropWhile_not isBlank text
  rw [Option.mem_def] at first
  rw [first] at solid
  exact solid

theorem trimEnd_isPrefix (text : List Char) : trimEnd text <+: text := by
  have suffix := List.dropWhile_suffix (l := text.reverse) isBlank
  rwa [← List.reverse_prefix, List.reverse_reverse] at suffix

theorem getLast?_trim {c : Char} (last : c ∈ (trim text).getLast?) : isBlank c = false := by
  rw [trim, trimEnd, List.getLast?_reverse] at last
  exact head?_dropWhile_isBlank last

theorem head?_trim {c : Char} (first : c ∈ (trim text).head?) : isBlank c = false := by
  obtain ⟨rest, whole⟩ := trimEnd_isPrefix (trimStart text)
  have start : c ∈ (trimStart text).head? := by
    rw [trim, Option.mem_def] at first
    rw [← whole, Option.mem_def, List.head?_append, first]
    rfl
  exact head?_dropWhile_isBlank start

theorem trim_eq_self_iff :
    trim text = text ↔
      (∀ c ∈ text.head?, isBlank c = false) ∧ ∀ c ∈ text.getLast?, isBlank c = false := by
  constructor
  · intro same
    rw [← same]
    exact ⟨fun c => head?_trim, fun c => getLast?_trim⟩
  · rintro ⟨first, last⟩
    rcases List.eq_nil_or_concat text with rfl | ⟨others, final, rfl⟩
    · rfl
    · rw [List.concat_eq_append] at first last ⊢
      have start : trimStart (others ++ [final]) = others ++ [final] := by
        cases others with
        | nil => exact trimStart_of_head_not_blank (first final rfl)
        | cons c rest => exact trimStart_of_head_not_blank (first c rfl)
      rw [trim, start]
      exact trimEnd_append_of_not_blank (last final (by simp))

theorem trim_trim (text : List Char) : trim (trim text) = trim text :=
  trim_eq_self_iff.mpr ⟨fun _ => head?_trim, fun _ => getLast?_trim⟩

/-- A text of nothing but blanks. -/
def Blank (text : List Char) : Prop := ∀ c ∈ text, isBlank c = true

instance (text : List Char) : Decidable (Blank text) := List.decidableBAll _ text

theorem Blank.nil : Blank [] := nofun

theorem Blank.not_mem {blanks : List Char} (blank : Blank blanks) {c : Char}
    (solid : isBlank c = false) : c ∉ blanks := by
  intro member
  rw [blank c member] at solid
  cases solid

theorem trimStart_append {before : List Char} (blank : Blank before) (text : List Char) :
    trimStart (before ++ text) = trimStart text :=
  List.dropWhile_append_of_pos blank

theorem trimEnd_append {after : List Char} (text : List Char) (blank : Blank after) :
    trimEnd (text ++ after) = trimEnd text := by
  have backwards : ∀ c ∈ after.reverse, isBlank c = true := fun c member =>
    blank c (List.mem_reverse.mp member)
  rw [trimEnd, trimEnd, List.reverse_append, List.dropWhile_append_of_pos backwards]

/-- What stands before a solid character is out of the reach of trimming. -/
theorem trimEnd_append_cons {c : Char} (solid : isBlank c = false) (before after : List Char) :
    trimEnd (before ++ c :: after) = before ++ c :: trimEnd after := by
  have kept : (c :: before.reverse).dropWhile isBlank = c :: before.reverse :=
    trimStart_of_head_not_blank solid
  have backwards : (before ++ c :: after).reverse = after.reverse ++ c :: before.reverse := by
    simp
  rw [trimEnd, backwards, List.dropWhile_append, kept, trimEnd]
  split
  · rename_i blank
    rw [List.isEmpty_iff.mp blank]
    simp
  · simp

theorem trimStart_eq_self (solid : trim text = text) (nonempty : text ≠ []) (after : List Char) :
    trimStart (text ++ after) = text ++ after := by
  obtain ⟨c, rest, rfl⟩ := List.exists_cons_of_ne_nil nonempty
  have first := (trim_eq_self_iff.mp solid).1 c rfl
  exact trimStart_of_head_not_blank first

theorem trimEnd_eq_self (solid : trim text = text) (nonempty : text ≠ []) (before : List Char) :
    trimEnd (before ++ text) = before ++ text := by
  obtain ⟨rest, c, rfl⟩ := List.eq_nil_or_concat text |>.resolve_left nonempty
  have last := (trim_eq_self_iff.mp solid).2 c (by simp)
  rw [List.concat_eq_append, ← List.append_assoc]
  exact trimEnd_append_of_not_blank last

theorem trim_padded {before after : List Char} (blank : Blank before) (blankAfter : Blank after)
    (text : List Char) : trim (before ++ (text ++ after)) = trim text := by
  have nothing : after.dropWhile isBlank = [] := by
    have cut := trimStart_append blankAfter []
    rwa [List.append_nil] at cut
  rw [trim, trimStart_append blank, trim]
  simp only [trimStart, List.dropWhile_append, nothing]
  split
  · rename_i allBlank
    rw [List.isEmpty_iff.mp allBlank]
  · exact trimEnd_append _ blankAfter

/-- Trimming gives back a solid text from between blanks. -/
theorem trim_surrounded {before after : List Char} (blank : Blank before) (solid : trim text = text)
    (blankAfter : Blank after) : trim (before ++ (text ++ after)) = text :=
  (trim_padded blank blankAfter text).trans solid

/-- What is left of a text without the blanks around it. -/
structure Stripped (text stripped : List Char) : Prop where
  around : ∃ before after, Blank before ∧ Blank after ∧ text = before ++ (stripped ++ after)
  first : ∀ c ∈ stripped.head?, isBlank c = false
  last : ∀ c ∈ stripped.getLast?, isBlank c = false

theorem stripped_iff {stripped : List Char} : Stripped text stripped ↔ stripped = trim text := by
  constructor
  · rintro ⟨⟨before, after, blank, blankAfter, rfl⟩, first, last⟩
    exact (trim_surrounded blank (trim_eq_self_iff.mpr ⟨first, last⟩) blankAfter).symm
  · rintro rfl
    have start : text = text.takeWhile isBlank ++ trimStart text :=
      List.takeWhile_append_dropWhile.symm
    have final : trimStart text =
        trim text ++ ((trimStart text).reverse.takeWhile isBlank).reverse := by
      rw [trim, trimEnd, ← List.reverse_append, List.takeWhile_append_dropWhile,
        List.reverse_reverse]
    refine ⟨⟨_, _, List.all_eq_true.mp List.all_takeWhile, fun c member => ?_, final ▸ start⟩,
      fun _ => head?_trim, fun _ => getLast?_trim⟩
    exact List.all_eq_true.mp List.all_takeWhile c (List.mem_reverse.mp member)

theorem trimStart_append_cons {c : Char} (solid : isBlank c = false) (before after : List Char) :
    trimStart (before ++ c :: after) = trimStart before ++ c :: after := by
  have kept : trimStart (c :: after) = c :: after := trimStart_of_head_not_blank solid
  rw [trimStart] at kept ⊢
  rw [List.dropWhile_append, kept, trimStart]
  split
  · rename_i blank
    rw [List.isEmpty_iff.mp blank, List.nil_append]
  · rfl

theorem trim_isInfix (text : List Char) : trim text <:+: text :=
  (trimEnd_isPrefix _).isInfix.trans (List.dropWhile_suffix isBlank).isInfix

/-- A solid end stays where it is. -/
theorem getLast?_of_trim {c : Char} (solid : ∀ d ∈ text.getLast?, isBlank d = false)
    (last : (trim text).getLast? = some c) : text.getLast? = some c := by
  rcases List.eq_nil_or_concat text with rfl | ⟨others, final, rfl⟩
  · exact last
  · rw [List.concat_eq_append] at solid last ⊢
    have kept : isBlank final = false := solid final (by simp)
    rw [trim, trimStart_append_cons kept, trimEnd_append_of_not_blank kept] at last
    simpa using last

theorem head?_trim_eq (solid : ∀ d ∈ text.head?, isBlank d = false) :
    (trim text).head? = text.head? := by
  cases text with
  | nil => rfl
  | cons c rest =>
      have kept : isBlank c = false := solid c rfl
      have cut := trimEnd_append_cons kept [] rest
      rw [List.nil_append, List.nil_append] at cut
      rw [trim, trimStart_of_head_not_blank kept, cut]
      rfl

end KeyCustody.Text
