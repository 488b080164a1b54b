import KeyCustody.Filter.Expression
import KeyCustody.Proofs.Text.Cutting
import KeyCustody.Proofs.Text.Fields
import KeyCustody.Proofs.Text.Trimming

namespace KeyCustody.Filter

/-! # Comparisons as they are written

A comparison is a field, a sign and the values between bars. It is read as it was written
unless its text ends in a question mark, which asks whether a field is present and so refuses
every comparison. -/

/-- A text that names a field: it holds no part of a sign, and no blanks stand around it. -/
structure FieldName (field : List Char) : Prop where
  nonempty : field ≠ []
  solid : Text.trim field = field
  noEquals : '=' ∉ field
  noBang : '!' ∉ field

/-- A text that holds no part of a sign. -/
structure Unsigned (text : List Char) : Prop where
  nonempty : text ≠ []
  noEquals : '=' ∉ text
  noBang : '!' ∉ text

theorem FieldName.unsigned {field : List Char} (named : FieldName field) : Unsigned field :=
  ⟨named.nonempty, named.noEquals, named.noBang⟩

/-- Texts that stand for themselves between bars. -/
structure ValueTexts (values : List String) : Prop where
  nonempty : values ≠ []
  noBar : ∀ value ∈ values, '|' ∉ value.toList
  solid : ∀ value ∈ values, Text.trim value.toList = value.toList

def EndInQuestion (values : List String) : Prop :=
  ∃ value, values.getLast? = some value ∧ value.toList.getLast? = some '?'

/-- The values between bars. -/
def barred (values : List String) : List Char := ['|'].intercalate (values.map String.toList)

variable {field text joined : List Char} {values : List String}

theorem ValueTexts.valuesOf_barred (texts : ValueTexts values) :
    valuesOf (barred values) = values := by
  have noBar : ∀ piece ∈ values.map String.toList, '|' ∉ piece := by
    intro piece member
    obtain ⟨value, stands, rfl⟩ := List.mem_map.mp member
    exact texts.noBar value stands
  rw [valuesOf, Text.fields_eq_splitOn, barred,
    List.splitOn_intercalate _ noBar (mt List.map_eq_nil_iff.mp texts.nonempty), List.map_map]
  refine (List.map_congr_left fun value member => ?_).trans (List.map_id values)
  rw [Function.comp_apply, texts.solid value member, String.ofList_toList, id]

theorem getLast?_barred {c : Char} (differs : c ≠ '|') :
    (barred values).getLast? = some c ↔
      ∃ value, values.getLast? = some value ∧ value.toList.getLast? = some c := by
  rw [barred, Text.getLast?_intercalate differs, List.getLast?_map]
  simp

theorem ValueTexts.solid_end (texts : ValueTexts values) {c : Char}
    (last : (barred values).getLast? = some c) : Text.isBlank c = false := by
  by_cases bar : c = '|'
  · rw [bar]
    decide
  · obtain ⟨value, stands, ends⟩ := (getLast?_barred bar).mp last
    have solid := texts.solid value (List.mem_of_getLast? stands)
    exact (Text.trim_eq_self_iff.mp solid).2 c ends

/-- The sign of a comparison. -/
def sign (negated : Bool) : List Char := if negated then ['!', '='] else ['=']

theorem Unsigned.head_ne_bang (unsigned : Unsigned field) (rest : List Char) :
    (field ++ rest).head? ≠ some '!' := by
  obtain ⟨c, others, rfl⟩ := List.exists_cons_of_ne_nil unsigned.nonempty
  rintro first
  cases first
  exact unsigned.noBang List.mem_cons_self

theorem getLast?_sign_append (negated : Bool) (joined : List Char) :
    (sign negated ++ joined).getLast? = joined.getLast?.or (some '=') := by
  rw [List.getLast?_append]
  cases negated <;> rfl

theorem trim_signed (nonempty : field ≠ []) (cut : Text.trim field = field) (negated : Bool)
    (solid : ∀ c, joined.getLast? = some c → Text.isBlank c = false) :
    Text.trim (field ++ (sign negated ++ joined)) = field ++ (sign negated ++ joined) := by
  refine Text.trim_eq_self_iff.mpr ⟨?_, ?_⟩
  · obtain ⟨c, others, rfl⟩ := List.exists_cons_of_ne_nil nonempty
    exact (Text.trim_eq_self_iff.mp cut).1
  · intro c last
    rw [Option.mem_def, List.getLast?_append, getLast?_sign_append] at last
    cases ends : joined.getLast? with
    | some d =>
        rw [ends] at last
        cases last
        exact solid c ends
    | none =>
        rw [ends] at last
        cases last
        decide

theorem trim_comparison (named : FieldName field) (negated : Bool)
    (solid : ∀ c, joined.getLast? = some c → Text.isBlank c = false) :
    Text.trim (field ++ (sign negated ++ joined)) = field ++ (sign negated ++ joined) :=
  trim_signed named.nonempty named.solid negated solid

theorem parseForm_of_question (first : text.head? ≠ some '!') (last : text.getLast? = some '?')
    (compares : '=' ∈ text) : parseForm text = .error "expected field?" := by
  have kept : '=' ∈ text.dropLast := by
    obtain ⟨others, rfl⟩ := List.getLast?_eq_some_iff.mp last
    rw [List.dropLast_concat]
    simpa using compares
  unfold parseForm
  split
  · exact absurd rfl first
  · rw [if_pos last, bareField, if_pos]
    · rfl
    · simp [kept]

theorem parseForm_of_comparison {negated : Bool} (first : text.head? ≠ some '!')
    (last : text.getLast? ≠ some '?') (cut : comparison? text = some (field, negated, joined))
    (nonempty : Text.trim field ≠ []) :
    parseForm text = .ok ⟨String.ofList (Text.trim field),
      comparisonTest negated (1 < (valuesOf joined).length), valuesOf joined⟩ := by
  unfold parseForm
  split
  · exact absurd rfl first
  · rw [if_neg last, cut]
    dsimp only
    rw [if_neg]
    simpa using nonempty

/-- A sign is found where it stands after the field. The sign that is tried first must not
stand within the values of the other. -/
theorem Unsigned.comparison?_eq (unsigned : Unsigned field) (negated : Bool)
    (clean : negated = false → ¬ ['!', '='] <:+: joined) :
    comparison? (field ++ (sign negated ++ joined)) = some (field, negated, joined) := by
  cases negated with
  | true =>
      have cut : Text.breakAt ['!', '='] (field ++ (sign true ++ joined)) = some (field, joined) :=
        Text.breakAt_append unsigned.noBang joined
      simp only [comparison?, cut]
  | false =>
      have noBang : '!' ∉ field ++ ['='] := by simpa using unsigned.noBang
      have whole : field ++ (sign false ++ joined) = (field ++ ['=']) ++ joined :=
        (List.append_assoc _ _ _).symm
      have absent : Text.breakAt ['!', '='] (field ++ (sign false ++ joined)) = none := by
        rw [Text.breakAt_eq_none_iff (List.cons_ne_nil _ _), whole]
        exact mt (Text.infix_of_infix_append noBang) (clean rfl)
      have cut : Text.breakAt ['='] (field ++ (sign false ++ joined)) = some (field, joined) :=
        Text.breakAt_append unsigned.noEquals joined
      simp only [comparison?, absent, cut, Option.map_some]

theorem Unsigned.parseForm_refused (unsigned : Unsigned field) (negated : Bool)
    (asks : joined.getLast? = some '?') :
    parseForm (field ++ (sign negated ++ joined)) = .error "expected field?" := by
  refine parseForm_of_question (unsigned.head_ne_bang _) ?_ ?_
  · rw [List.getLast?_append, getLast?_sign_append, asks]
    rfl
  · cases negated <;> simp [sign]

theorem FieldName.parseForm_refused (named : FieldName field) (negated : Bool)
    (asks : joined.getLast? = some '?') :
    parseForm (field ++ (sign negated ++ joined)) = .error "expected field?" :=
  named.unsigned.parseForm_refused negated asks

theorem FieldName.parseForm_eq_ok (named : FieldName field) (texts : ValueTexts values)
    (negated : Bool) (tells : ¬ EndInQuestion values)
    (clean : negated = false → ¬ ['!', '='] <:+: barred values) :
    parseForm (field ++ (sign negated ++ barred values)) =
      .ok ⟨String.ofList field, comparisonTest negated (1 < values.length), values⟩ := by
  have last : (field ++ (sign negated ++ barred values)).getLast? ≠ some '?' := by
    rw [List.getLast?_append, getLast?_sign_append]
    cases ends : (barred values).getLast? with
    | none => simp
    | some c =>
        rintro asks
        cases asks
        exact tells ((getLast?_barred (by decide)).mp ends)
  have solid : Text.trim field ≠ [] := named.solid.symm ▸ named.nonempty
  have form := parseForm_of_comparison (named.unsigned.head_ne_bang _) last
    (named.unsigned.comparison?_eq negated clean) solid
  rwa [texts.valuesOf_barred, named.solid] at form

/-- Values without `!=` are joined to a text without it. -/
theorem not_infix_barred (clean : ∀ value ∈ values, ¬ ['!', '='] <:+: value.toList) :
    ¬ ['!', '='] <:+: barred values := by
  intro occurs
  obtain ⟨piece, member, inside⟩ :=
    Text.infix_intercalate (List.cons_ne_nil _ _) (by decide) occurs
  obtain ⟨value, stands, rfl⟩ := List.mem_map.mp member
  exact clean value stands inside

/-- A comparison as text. -/
def written (field : String) (negated : Bool) (values : List String) : String :=
  field ++ (if negated then "!=" else "=") ++ Text.joinWith "|" values

theorem toList_written (field : String) (negated : Bool) (values : List String) :
    (written field negated values).toList =
      field.toList ++ (sign negated ++ barred values) := by
  have joined : (Text.joinWith "|" values).toList = barred values := Text.toList_joinWith '|' values
  rw [written, String.toList_append, String.toList_append, joined, List.append_assoc]
  cases negated <;> rfl

theorem comparisonTest_eq (negated : Bool) (nonempty : values ≠ []) :
    comparisonTest negated (1 < values.length) =
      if negated then (if values.length = 1 then .differ else .noneOf)
      else (if values.length = 1 then .equal else .oneOf) := by
  have positive := List.length_pos_iff.mpr nonempty
  by_cases single : values.length = 1
  · cases negated <;> simp [comparisonTest, single]
  · have several : 1 < values.length := by omega
    cases negated <;> simp [comparisonTest, single, several]

/-- A comparison is read as the field and the values that it was written with. Where the last
value ends in a question mark it is refused: a text with this end asks for presence, and the
name of a field holds no sign. -/
theorem parse_written (field : String) (values : List String) (negated : Bool)
    (named : FieldName field.toList) (texts : ValueTexts values) :
    (EndInQuestion values → parse (written field negated values) =
      .error (refusal (written field negated values) "expected field?")) ∧
    (¬ EndInQuestion values →
      (negated = false → ∀ value ∈ values, ¬ ['!', '='] <:+: value.toList) →
      parse (written field negated values) = .ok ⟨field,
        if negated then (if values.length = 1 then .differ else .noneOf)
        else (if values.length = 1 then .equal else .oneOf), values⟩) := by
  have trimmed := trim_comparison named negated fun c => texts.solid_end
  rw [← toList_written] at trimmed
  constructor
  · intro asks
    rw [parse, trimmed, toList_written,
      named.parseForm_refused negated ((getLast?_barred (by decide)).mpr asks)]
    rfl
  · intro tells clean
    rw [parse, trimmed, toList_written, named.parseForm_eq_ok texts negated tells
      fun positive => not_infix_barred (clean positive)]
    rw [← comparisonTest_eq negated texts.nonempty, String.ofList_toList]
    rfl

theorem fieldName_description : FieldName "key_description".toList where
  nonempty := by decide
  solid := by decide
  noEquals := by decide
  noBang := by decide

theorem ValueTexts.singleton {value : String} (noBar : '|' ∉ value.toList)
    (solid : Text.trim value.toList = value.toList) : ValueTexts [value] where
  nonempty := List.cons_ne_nil _ _
  noBar := List.forall_mem_singleton.mpr noBar
  solid := List.forall_mem_singleton.mpr solid

/-- Signs within the values are part of them. -/
theorem values_with_signs_read :
    let values := ["a!=b", "", "!c? d="]
    (FieldName "key_description".toList ∧ ValueTexts values ∧ ¬ EndInQuestion values) ∧
      parse "key_description!=a!=b||!c? d=" = .ok ⟨"key_description", .noneOf, values⟩ := by
  intro values
  have texts : ValueTexts values := ⟨by decide, by decide, by decide⟩
  have tells : ¬ EndInQuestion values := by
    rintro ⟨value, stands, ends⟩
    cases stands
    exact absurd ends (by decide)
  have read := (parse_written "key_description" values true fieldName_description texts).2 tells
    fun positive => nomatch positive
  exact ⟨⟨fieldName_description, texts, tells⟩, read⟩

/-- Two comparisons that are not read as they were written: the one is refused for the end of
its value, and the other is read with a field that it does not have. -/
theorem comparisons_not_read_as_written :
    (FieldName "key_description".toList ∧ '?' ∉ "key_description".toList) ∧
    (ValueTexts ["why?"] ∧ parse (written "key_description" false ["why?"]) =
      .error (refusal "key_description=why?" "expected field?")) ∧
    ValueTexts ["a!=b"] ∧ parse (written "key_description" false ["a!=b"]) =
      .ok ⟨"key_description=a", .differ, ["b"]⟩ :=
  ⟨⟨fieldName_description, by decide⟩, ⟨.singleton (by decide) (by decide), by decide⟩,
    .singleton (by decide) (by decide), by decide⟩

end KeyCustody.Filter
