import KeyCustody.Proofs.Filter.Expression

namespace KeyCustody.Filter

/-! # Blanks around a field

A comparison cuts the blanks around its field. The forms that ask for presence or absence are
cut at their outer ends alone, so a blank between sign and field is kept as part of the field.
So is a blank before the sign of an equality with `!=` in its values, where the field that is
read reaches into the values. -/

/-- An expression without its field. -/
inductive Form where
  | absent
  | present
  | comparison (negated : Bool) (values : List Char)

/-- The expression of a form for a field. -/
def Form.write (field : List Char) : Form → String
  | .absent => String.ofList ('!' :: field)
  | .present => String.ofList (field ++ ['?'])
  | .comparison negated values => String.ofList (field ++ (sign negated ++ values))

/-- The filter that an expression is read as, if it is one. -/
def read? (expression : String) : Option Filter := (parse expression).toOption

variable {before field after joined values front back : List Char} {negated : Bool}

theorem read?_ofList {text : List Char} :
    read? (String.ofList text) = (parseForm (Text.trim text)).toOption := by
  rw [read?, parse, String.toList_ofList]
  cases parseForm (Text.trim text) <;> rfl

theorem Unsigned.padded (unsigned : Unsigned field) (blank : Text.Blank before)
    (blankAfter : Text.Blank after) : Unsigned (before ++ (field ++ after)) where
  nonempty := by simp [unsigned.nonempty]
  noEquals := by
    simp [unsigned.noEquals, blank.not_mem (c := '=') (by decide),
      blankAfter.not_mem (c := '=') (by decide)]
  noBang := by
    simp [unsigned.noBang, blank.not_mem (c := '!') (by decide),
      blankAfter.not_mem (c := '!') (by decide)]

theorem bareField_eq (unsigned : Unsigned field) (test : Test) :
    bareField test field = some ⟨String.ofList field, test, []⟩ := by
  rw [bareField, if_neg]
  simp [unsigned.nonempty, unsigned.noEquals]

theorem read?_absent (named : FieldName field) (blank : Text.Blank before)
    (blankAfter : Text.Blank after) :
    read? (Form.absent.write (before ++ (field ++ after))) =
      some ⟨String.ofList (before ++ field), .absent, []⟩ := by
  have cut : Text.trim ('!' :: (before ++ (field ++ after))) = '!' :: (before ++ field) := by
    have solid := Text.trimEnd_eq_self named.solid named.nonempty ('!' :: before)
    rw [Text.trim, Text.trimStart_of_head_not_blank (by decide), ← List.append_assoc,
      ← List.cons_append, Text.trimEnd_append _ blankAfter]
    exact solid
  have unsigned := named.unsigned.padded blank .nil
  rw [List.append_nil] at unsigned
  rw [Form.write, read?_ofList, cut, parseForm, bareField_eq unsigned]
  rfl

theorem read?_present (named : FieldName field) (blank : Text.Blank before)
    (blankAfter : Text.Blank after) :
    read? (Form.present.write (before ++ (field ++ after))) =
      some ⟨String.ofList (field ++ after), .present, []⟩ := by
  have unsigned : Unsigned (field ++ after) := named.unsigned.padded .nil blankAfter
  have cut : Text.trim (before ++ (field ++ after) ++ ['?']) = field ++ after ++ ['?'] := by
    rw [Text.trim, List.append_assoc, Text.trimStart_append blank, List.append_assoc,
      Text.trimStart_eq_self named.solid named.nonempty, ← List.append_assoc]
    exact Text.trimEnd_append_of_not_blank (by decide)
  rw [Form.write, read?_ofList, cut]
  unfold parseForm
  split
  · rename_i starts
    exact absurd (congrArg List.head? starts) (unsigned.head_ne_bang _)
  · rw [if_pos (by simp), List.dropLast_concat, bareField_eq unsigned]
    rfl

theorem trim_sign_append (named : FieldName field) (blank : Text.Blank before) (after : List Char)
    (negated : Bool) (values : List Char) :
    Text.trim (before ++ (field ++ after) ++ (sign negated ++ values)) =
      field ++ after ++ (sign negated ++ Text.trimEnd values) := by
  rw [Text.trim, List.append_assoc, Text.trimStart_append blank, List.append_assoc,
    Text.trimStart_eq_self named.solid named.nonempty, ← List.append_assoc]
  cases negated with
  | true =>
      have cut := Text.trimEnd_append_cons (c := '=') (by decide) (field ++ after ++ ['!']) values
      simpa [sign] using cut
  | false => exact Text.trimEnd_append_cons (by decide) _ values

theorem getLast?_ne_question (tells : joined.getLast? ≠ some '?') (field : List Char)
    (negated : Bool) : (field ++ (sign negated ++ joined)).getLast? ≠ some '?' := by
  rw [List.getLast?_append, getLast?_sign_append]
  cases ends : joined.getLast? with
  | none => simp
  | some c =>
      rw [ends] at tells
      simpa using tells

/-- The first `!=` in the values of an equality is taken for its sign. -/
theorem Unsigned.comparison?_eq_of_cut (unsigned : Unsigned field)
    (cut : Text.breakAt ['!', '='] joined = some (front, back)) :
    comparison? (field ++ (sign false ++ joined)) = some (field ++ '=' :: front, true, back) := by
  have noBang : '!' ∉ field ++ ['='] := by simpa using unsigned.noBang
  have whole : field ++ (sign false ++ joined) = field ++ ['='] ++ joined :=
    (List.append_assoc _ _ _).symm
  have split : Text.breakAt ['!', '='] (field ++ (sign false ++ joined)) =
      some (field ++ '=' :: front, back) := by
    rw [whole, Text.breakAt_append_of_not_mem noBang, cut, Option.map_some, List.append_assoc]
    rfl
  simp only [comparison?, split]

/-- The end of such a field is cut within the values. -/
theorem trim_reaching (named : FieldName field) (after front : List Char) :
    Text.trim (field ++ after ++ '=' :: front) =
      field ++ (after ++ '=' :: Text.trimEnd front) := by
  rw [Text.trim, List.append_assoc, Text.trimStart_eq_self named.solid named.nonempty,
    ← List.append_assoc, Text.trimEnd_append_cons (by decide), List.append_assoc]

section

variable (named : FieldName field) (blank : Text.Blank before) (blankAfter : Text.Blank after)
include named blank blankAfter

theorem read?_comparison_of_question (asks : (Text.trimEnd values).getLast? = some '?') :
    read? ((Form.comparison negated values).write (before ++ (field ++ after))) = none := by
  have unsigned : Unsigned (field ++ after) := named.unsigned.padded .nil blankAfter
  rw [Form.write, read?_ofList, trim_sign_append named blank,
    unsigned.parseForm_refused negated asks]
  rfl

theorem read?_comparison (tells : (Text.trimEnd values).getLast? ≠ some '?')
    (clean : negated = false → ¬ ['!', '='] <:+: Text.trimEnd values) :
    read? ((Form.comparison negated values).write (before ++ (field ++ after))) =
      some ⟨String.ofList field,
        comparisonTest negated (1 < (valuesOf (Text.trimEnd values)).length),
        valuesOf (Text.trimEnd values)⟩ := by
  have unsigned : Unsigned (field ++ after) := named.unsigned.padded .nil blankAfter
  have key : Text.trim (field ++ after) = field :=
    Text.trim_surrounded .nil named.solid blankAfter
  have form := parseForm_of_comparison (unsigned.head_ne_bang _)
    (getLast?_ne_question tells _ negated) (unsigned.comparison?_eq negated clean)
    (key.symm ▸ named.nonempty)
  rw [Form.write, read?_ofList, trim_sign_append named blank, form, key]
  rfl

theorem read?_equality_of_cut (tells : (Text.trimEnd values).getLast? ≠ some '?')
    (cut : Text.breakAt ['!', '='] (Text.trimEnd values) = some (front, back)) :
    read? ((Form.comparison false values).write (before ++ (field ++ after))) =
      some ⟨String.ofList (field ++ (after ++ '=' :: Text.trimEnd front)),
        comparisonTest true (1 < (valuesOf back).length), valuesOf back⟩ := by
  have unsigned : Unsigned (field ++ after) := named.unsigned.padded .nil blankAfter
  have key := trim_reaching named after front
  have nonempty : Text.trim (field ++ after ++ '=' :: front) ≠ [] := by
    rw [key]
    simp
  have form := parseForm_of_comparison (unsigned.head_ne_bang _)
    (getLast?_ne_question tells _ false) (unsigned.comparison?_eq_of_cut cut) nonempty
  rw [Form.write, read?_ofList, trim_sign_append named blank, form, key]
  rfl

end

/-- The values are those of an equality that is read, and hold `!=`. -/
def Misread (negated : Bool) (values : List Char) : Prop :=
  negated = false ∧ (Text.trimEnd values).getLast? ≠ some '?' ∧
    ['!', '='] <:+: Text.trimEnd values

/-- The form is read with these blanks around its field as it is without them. -/
def Form.Ignores (before after : List Char) : Form → Prop
  | .absent => before = []
  | .present => after = []
  | .comparison negated values => Misread negated values → after = []

/-- No blank is left at an end of the field that the form is read with. -/
def Form.Cuts (before after : List Char) : Form → Prop
  | .absent => before = []
  | .present => after = []
  | .comparison _ _ => True

/-- The form is read alike with and without the blanks exactly if it ignores them, and the field
that it is read with is solid exactly if it cuts them. -/
structure Form.Settled (form : Form) (before field after : List Char) : Prop where
  ignores : read? (form.write (before ++ (field ++ after))) = read? (form.write field) ↔
    form.Ignores before after
  cuts : ∀ filter, read? (form.write (before ++ (field ++ after))) = some filter →
    (Text.trim filter.path.toList = filter.path.toList ↔ form.Cuts before after)

theorem settled_absent (named : FieldName field) (blank : Text.Blank before)
    (blankAfter : Text.Blank after) : Form.absent.Settled before field after := by
  have padded := read?_absent named blank blankAfter
  have bare := read?_absent named .nil .nil
  rw [List.nil_append, List.append_nil, List.nil_append] at bare
  refine ⟨?_, fun filter reads => ?_⟩
  · rw [padded, bare, Option.some.injEq, Filter.mk.injEq, String.ofList_inj,
      List.append_left_eq_self, and_iff_left ⟨rfl, rfl⟩]
    rfl
  · rw [padded] at reads
    cases reads
    have inner := Text.trim_surrounded blank named.solid .nil
    rw [List.append_nil] at inner
    rw [String.toList_ofList, inner, List.self_eq_append_left]
    rfl

theorem settled_present (named : FieldName field) (blank : Text.Blank before)
    (blankAfter : Text.Blank after) : Form.present.Settled before field after := by
  have padded := read?_present named blank blankAfter
  have bare := read?_present named .nil .nil
  rw [List.nil_append, List.append_nil] at bare
  refine ⟨?_, fun filter reads => ?_⟩
  · rw [padded, bare, Option.some.injEq, Filter.mk.injEq, String.ofList_inj,
      List.append_right_eq_self, and_iff_left ⟨rfl, rfl⟩]
    rfl
  · rw [padded] at reads
    cases reads
    have inner := Text.trim_surrounded .nil named.solid blankAfter
    rw [List.nil_append] at inner
    rw [String.toList_ofList, inner, List.self_eq_append_right]
    rfl

theorem settled_comparison (named : FieldName field) (blank : Text.Blank before)
    (blankAfter : Text.Blank after) (negated : Bool) (values : List Char) :
    (Form.comparison negated values).Settled before field after := by
  by_cases asks : (Text.trimEnd values).getLast? = some '?'
  · have refused {front back : List Char} (blank : Text.Blank front) (last : Text.Blank back) :
        read? ((Form.comparison negated values).write (front ++ (field ++ back))) = none :=
      read?_comparison_of_question named blank last asks
    have bare := refused .nil .nil
    rw [List.nil_append, List.append_nil] at bare
    refine ⟨iff_of_true ((refused blank blankAfter).trans bare.symm) fun misread =>
      absurd asks misread.2.1, fun filter reads => ?_⟩
    rw [refused blank blankAfter] at reads
    cases reads
  · by_cases clean : negated = false → ¬ ['!', '='] <:+: Text.trimEnd values
    · have padded := read?_comparison named blank blankAfter asks clean
      have bare := read?_comparison named .nil .nil asks clean
      rw [List.nil_append, List.append_nil] at bare
      refine ⟨iff_of_true (padded.trans bare.symm) fun misread =>
        absurd misread.2.2 (clean misread.1), fun filter reads => ?_⟩
      rw [padded] at reads
      cases reads
      rw [String.toList_ofList]
      exact iff_of_true named.solid trivial
    · obtain ⟨rfl, occurs⟩ := Classical.not_imp.mp clean
      obtain ⟨⟨front, back⟩, cut⟩ := Option.ne_none_iff_exists'.mp
        (mt (Text.breakAt_eq_none_iff (List.cons_ne_nil _ _)).mp occurs)
      have padded := read?_equality_of_cut named blank blankAfter asks cut
      have bare := read?_equality_of_cut named .nil .nil asks cut
      rw [List.nil_append, List.append_nil] at bare
      refine ⟨?_, fun filter reads => ?_⟩
      · have misread : Misread false values := ⟨rfl, asks, Classical.not_not.mp occurs⟩
        rw [padded, bare, Option.some.injEq, Filter.mk.injEq, String.ofList_inj,
          List.append_right_inj, List.nil_append, List.append_left_eq_self,
          and_iff_left ⟨rfl, rfl⟩]
        exact ⟨fun none _ => none, fun ignored => ignored misread⟩
      · rw [padded] at reads
        cases reads
        rw [String.toList_ofList, ← trim_reaching named, Text.trim_trim]
        exact iff_of_true rfl trivial

/-- Blanks around a field count in three places alone: behind the sign of absence, in front of
the sign of presence, and in front of the sign of an equality with `!=` in its values. In the
first two they stay at an end of the field that is read, and a comparison leaves none there. -/
theorem blanks_count_where_kept (form : Form) (named : FieldName field)
    (blank : Text.Blank before) (blankAfter : Text.Blank after) :
    (read? (form.write (before ++ (field ++ after))) = read? (form.write field) ↔
      form.Ignores before after) ∧
    ∀ filter, read? (form.write (before ++ (field ++ after))) = some filter →
      (Text.trim filter.path.toList = filter.path.toList ↔ form.Cuts before after) := by
  have settled : form.Settled before field after := by
    cases form with
    | absent => exact settled_absent named blank blankAfter
    | present => exact settled_present named blank blankAfter
    | comparison negated values => exact settled_comparison named blank blankAfter negated values
  exact ⟨settled.ignores, settled.cuts⟩

theorem fieldName_alias : FieldName "key_alias".toList where
  nonempty := by decide
  solid := by decide
  noEquals := by decide
  noBang := by decide

/-- Blanks on both sides of the field of a comparison with two values change nothing. -/
theorem blanks_around_compared_field :
    let form : Form := .comparison false " app | db".toList
    let padded := [' '] ++ ("key_alias".toList ++ ['\t', ' '])
    (FieldName "key_alias".toList ∧ Text.Blank [' '] ∧ Text.Blank ['\t', ' ']) ∧
      form.write padded = " key_alias\t = app | db" ∧
      read? (form.write padded) = read? (form.write "key_alias".toList) := by
  intro form padded
  have blank : Text.Blank [' '] := by decide
  have blankAfter : Text.Blank ['\t', ' '] := by decide
  have noBang : '!' ∉ Text.trimEnd " app | db".toList := by decide
  have clean : ¬ Misread false " app | db".toList := fun misread =>
    noBang (misread.2.2.subset List.mem_cons_self)
  have law := blanks_count_where_kept form fieldName_alias blank blankAfter
  exact ⟨⟨fieldName_alias, blank, blankAfter⟩, by decide,
    law.1.mpr fun misread => absurd misread clean⟩

/-- A blank inside the sign and the field of absence or presence becomes part of the field. -/
theorem blank_at_sign_kept :
    (FieldName "key_alias".toList ∧ '?' ∉ "key_alias".toList ∧ Text.Blank [' ']) ∧
    (parse "!key_alias" = .ok ⟨"key_alias", .absent, []⟩ ∧
      parse "! key_alias" = .ok ⟨" key_alias", .absent, []⟩) ∧
    parse "key_alias?" = .ok ⟨"key_alias", .present, []⟩ ∧
      parse "key_alias ?" = .ok ⟨"key_alias ", .present, []⟩ :=
  ⟨⟨fieldName_alias, by decide, by decide⟩, ⟨by decide, by decide⟩, by decide, by decide⟩

end KeyCustody.Filter
