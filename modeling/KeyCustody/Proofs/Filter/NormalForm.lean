import KeyCustody.Proofs.Filter.FieldBlanks
import Mathlib.Data.List.Infix

namespace KeyCustody.Filter

/-! # Filters as they are read

An expression is read in one of three ways, and the filter that comes of it is in normal form:
it has a name, as many values as its test compares with, and values that stand for themselves
between bars. Written as an expression it is read again in the same way. The one exception is
an equality whose field ends in `!`, which runs into the sign. -/

variable {text field joined : List Char} {negated : Bool} {filter : Filter}

/-- How many values a test may come with. -/
def Test.Counts : Test → Nat → Prop
  | .present, count => count = 0
  | .absent, count => count = 0
  | .equal, count => count = 1
  | .differ, count => count = 1
  | .oneOf, count => 2 ≤ count
  | .noneOf, count => 2 ≤ count

structure Normal (filter : Filter) : Prop where
  named : filter.path ≠ ""
  counted : filter.test.Counts filter.values.length
  solid : ∀ value ∈ filter.values, Text.trim value.toList = value.toList
  noBar : ∀ value ∈ filter.values, '|' ∉ value.toList

/-- Where a comparison is cut: at the first `!=`, or at the first `=` where there is no `!=`. -/
inductive CutAt (text field : List Char) : Bool → List Char → Prop where
  | differ (joined : List Char) (whole : text = field ++ (sign true ++ joined))
      (earliest : ¬ ['!', '='] <:+: field) : CutAt text field true joined
  | equal (joined : List Char) (whole : text = field ++ (sign false ++ joined))
      (earliest : '=' ∉ field) (never : ¬ ['!', '='] <:+: text) : CutAt text field false joined

theorem CutAt.whole (cut : CutAt text field negated joined) :
    text = field ++ (sign negated ++ joined) := by
  cases cut with
  | differ joined whole earliest => exact whole
  | equal joined whole earliest never => exact whole

/-- A sign does not begin in the first character of another. -/
theorem infix_append_bang : ['!', '='] <:+: field ++ ['!'] ↔ ['!', '='] <:+: field := by
  rw [List.infix_concat_iff]
  refine or_iff_right fun ends => ?_
  rcases List.suffix_concat_iff.mp ends with empty | ⟨front, whole, -⟩
  · cases empty
  · have last := congrArg List.getLast? whole
    simp at last

/-- A sign that is new where texts are joined by `=` takes this `=` as its own. -/
theorem infix_append_equals (occurs : ['!', '='] <:+: field ++ '=' :: joined) :
    ['!', '='] <:+: field ∨ field.getLast? = some '!' ∨ ['!', '='] <:+: joined := by
  rcases List.infix_append_iff_ne_nil.mp occurs with
    inside | later | ⟨front, back, filled, filledBack, whole, ends, -⟩
  · exact .inl inside
  · rcases List.infix_cons_iff.mp later with starting | within
    · have first := (List.cons_prefix_cons.mp starting).1
      exact absurd first (by decide)
    · exact .inr (.inr within)
  · -- Of the two characters only the first is left for the text in front.
    obtain ⟨c, others, rfl⟩ := List.exists_cons_of_ne_nil filled
    obtain ⟨d, more, rfl⟩ := List.exists_cons_of_ne_nil filledBack
    cases others with
    | nil =>
        have bang : '!' = c := (List.cons.inj whole).1
        obtain ⟨before, rfl⟩ := ends
        rw [← bang]
        exact .inr (.inl List.getLast?_concat)
    | cons e others => simp at whole

theorem breakAt_differ_iff : Text.breakAt ['!', '='] text = some (field, joined) ↔
    text = field ++ (sign true ++ joined) ∧ ¬ ['!', '='] <:+: field := by
  rw [Text.breakAt_eq_some_iff (List.cons_ne_nil _ _), ← @infix_append_bang field]
  rfl

theorem breakAt_equal_iff : Text.breakAt ['='] text = some (field, joined) ↔
    text = field ++ (sign false ++ joined) ∧ '=' ∉ field := by
  rw [Text.breakAt_eq_some_iff (List.cons_ne_nil _ _), ← List.singleton_infix_iff '=' field]
  simp [sign]

theorem comparison?_eq_some_iff :
    comparison? text = some (field, negated, joined) ↔ CutAt text field negated joined := by
  rw [comparison?]
  cases found : Text.breakAt ['!', '='] text with
  | some halves =>
      obtain ⟨front, back⟩ := halves
      have differs := breakAt_differ_iff.mp found
      have occurs : ['!', '='] <:+: text := by
        rw [differs.1]
        exact List.infix_append' front _ back
      constructor
      · intro read
        cases read
        exact .differ _ differs.1 differs.2
      · intro cut
        cases cut with
        | differ joined whole earliest =>
            rw [breakAt_differ_iff.mpr ⟨whole, earliest⟩] at found
            cases found
            rfl
        | equal joined whole earliest never => exact absurd occurs never
  | none =>
      have never := (Text.breakAt_eq_none_iff (List.cons_ne_nil _ _)).mp found
      constructor
      · intro read
        obtain ⟨⟨front, back⟩, split, halves⟩ := Option.map_eq_some_iff.mp read
        cases halves
        obtain ⟨whole, earliest⟩ := breakAt_equal_iff.mp split
        exact .equal back whole earliest never
      · intro cut
        cases cut with
        | differ joined whole earliest =>
            rw [breakAt_differ_iff.mpr ⟨whole, earliest⟩] at found
            cases found
        | equal joined whole earliest never =>
            rw [breakAt_equal_iff.mpr ⟨whole, earliest⟩]
            rfl

/-- The filter that a text is read as, by the form of the text. -/
inductive Reads (text : List Char) : Filter → Prop where
  | absent (field : List Char) (whole : text = '!' :: field) (nonempty : field ≠ [])
      (noEquals : '=' ∉ field) : Reads text ⟨String.ofList field, .absent, []⟩
  | present (field : List Char) (first : text.head? ≠ some '!') (whole : text = field ++ ['?'])
      (nonempty : field ≠ []) (noEquals : '=' ∉ field) :
      Reads text ⟨String.ofList field, .present, []⟩
  | comparison (field : List Char) (negated : Bool) (joined : List Char)
      (first : text.head? ≠ some '!') (last : text.getLast? ≠ some '?')
      (cut : CutAt text field negated joined) (nonempty : Text.trim field ≠ []) :
      Reads text ⟨String.ofList (Text.trim field),
        comparisonTest negated (1 < (valuesOf joined).length), valuesOf joined⟩

theorem bareField_eq_some_iff {test : Test} : bareField test field = some filter ↔
    field ≠ [] ∧ '=' ∉ field ∧ filter = ⟨String.ofList field, test, []⟩ := by
  rw [bareField]
  split
  · rename_i refused
    rw [Bool.or_eq_true, List.isEmpty_iff, List.contains_iff_mem] at refused
    simp only [reduceCtorEq, false_iff]
    rintro ⟨nonempty, noEquals, -⟩
    exact refused.elim nonempty noEquals
  · rename_i accepted
    rw [Bool.or_eq_true, List.isEmpty_iff, List.contains_iff_mem, not_or] at accepted
    rw [Option.some.injEq, eq_comm]
    exact ⟨fun same => ⟨accepted.1, accepted.2, same⟩, fun reads => reads.2.2⟩

theorem elim_eq_ok_iff {found : Option Filter} {reason : String} :
    found.elim (.error reason : Except String Filter) .ok = .ok filter ↔ found = some filter := by
  cases found <;> simp

theorem parseForm_eq_ok_iff : parseForm text = .ok filter ↔ Reads text filter := by
  constructor
  · intro read
    unfold parseForm at read
    split at read
    · rename_i field
      obtain ⟨nonempty, noEquals, rfl⟩ := bareField_eq_some_iff.mp (elim_eq_ok_iff.mp read)
      exact .absent field rfl nonempty noEquals
    · rename_i other
      have first : text.head? ≠ some '!' := fun bang => by
        obtain ⟨field, whole⟩ := List.head?_eq_some_iff.mp bang
        exact other field whole
      split at read
      · rename_i question
        obtain ⟨field, rfl⟩ := List.getLast?_eq_some_iff.mp question
        rw [List.dropLast_concat] at read
        obtain ⟨nonempty, noEquals, rfl⟩ := bareField_eq_some_iff.mp (elim_eq_ok_iff.mp read)
        exact .present field first rfl nonempty noEquals
      · rename_i last
        split at read
        · cases read
        · rename_i field negated joined found
          dsimp only at read
          split at read
          · cases read
          · rename_i nonempty
            cases read
            rw [List.isEmpty_iff] at nonempty
            exact .comparison field negated joined first last (comparison?_eq_some_iff.mp found)
              nonempty
  · intro reads
    cases reads with
    | absent field whole nonempty noEquals =>
        rw [whole, parseForm, elim_eq_ok_iff, bareField_eq_some_iff]
        exact ⟨nonempty, noEquals, rfl⟩
    | present field first whole nonempty noEquals =>
        rw [whole] at first ⊢
        unfold parseForm
        split
        · rename_i starts
          rw [starts] at first
          exact absurd rfl first
        · rw [if_pos (by simp), List.dropLast_concat, elim_eq_ok_iff, bareField_eq_some_iff]
          exact ⟨nonempty, noEquals, rfl⟩
    | comparison field negated joined first last cut nonempty =>
        exact parseForm_of_comparison first last (comparison?_eq_some_iff.mpr cut) nonempty

theorem valueTexts_valuesOf (joined : List Char) : ValueTexts (valuesOf joined) where
  nonempty := mt List.map_eq_nil_iff.mp (Text.fields_ne_nil '|' joined)
  noBar := by
    intro value member
    obtain ⟨piece, stands, rfl⟩ := List.mem_map.mp member
    rw [String.toList_ofList]
    exact mt (Text.trim_isInfix piece).mem (Text.separator_not_mem stands)
  solid := by
    intro value member
    obtain ⟨piece, stands, rfl⟩ := List.mem_map.mp member
    rw [String.toList_ofList, Text.trim_trim]

/-- A value reaches to the end of the text only if the text ends where the value does. -/
theorem not_endInQuestion_valuesOf (solid : ∀ c ∈ joined.getLast?, Text.isBlank c = false)
    (tells : joined.getLast? ≠ some '?') : ¬ EndInQuestion (valuesOf joined) := by
  rintro ⟨value, stands, ends⟩
  rw [valuesOf, List.getLast?_map, Option.map_eq_some_iff] at stands
  obtain ⟨piece, last, rfl⟩ := stands
  rw [String.toList_ofList] at ends
  have reaches {c : Char} (differs : c ≠ '|') (final : piece.getLast? = some c) :
      joined.getLast? = some c := by
    rw [Text.fields_eq_splitOn] at last
    have whole : ['|'].intercalate (joined.splitOn '|') = joined := List.intercalate_splitOn '|'
    rw [← whole]
    exact (Text.getLast?_intercalate differs).mpr ⟨piece, last, final⟩
  have solidPiece : ∀ c ∈ piece.getLast?, Text.isBlank c = false := by
    intro c final
    by_cases bar : c = '|'
    · rw [bar]
      decide
    · exact solid c (reaches bar final)
  exact tells (reaches (by decide) (Text.getLast?_of_trim solidPiece ends))

theorem clean_valuesOf (clean : ¬ ['!', '='] <:+: joined) :
    ∀ value ∈ valuesOf joined, ¬ ['!', '='] <:+: value.toList := by
  intro value member occurs
  obtain ⟨piece, stands, rfl⟩ := List.mem_map.mp member
  rw [String.toList_ofList] at occurs
  exact clean (occurs.trans ((Text.trim_isInfix piece).trans (Text.isInfix_of_mem_fields stands)))

theorem counts_comparisonTest (negated : Bool) {values : List String} (nonempty : values ≠ []) :
    (comparisonTest negated (1 < values.length)).Counts values.length := by
  have positive := List.length_pos_iff.mpr nonempty
  rw [comparisonTest_eq negated nonempty]
  by_cases single : values.length = 1
  · cases negated <;> simp [single, Test.Counts]
  · cases negated <;> simp [single, Test.Counts] <;> omega

theorem Reads.normal (reads : Reads text filter) : Normal filter := by
  cases reads with
  | absent field whole nonempty noEquals =>
      exact ⟨by simpa using nonempty, rfl, List.forall_mem_nil _, List.forall_mem_nil _⟩
  | present field first whole nonempty noEquals =>
      exact ⟨by simpa using nonempty, rfl, List.forall_mem_nil _, List.forall_mem_nil _⟩
  | comparison field negated joined first last cut nonempty =>
      have texts := valueTexts_valuesOf joined
      exact ⟨by simpa using nonempty, counts_comparisonTest negated texts.nonempty, texts.solid,
        texts.noBar⟩

theorem write_comparison (path : String) (negated several : Bool) (values : List String) :
    write ⟨path, comparisonTest negated several, values⟩ = written path negated values := by
  cases negated <;> cases several <;> rfl

/-- The first sign is the same when the blanks around the pieces are gone. Only a `!` that has
come to stand before an `=` makes a new one. -/
theorem CutAt.rewritten (cut : CutAt text field negated joined)
    (parted : negated = false → (Text.trim field).getLast? ≠ some '!') :
    CutAt (Text.trim field ++ (sign negated ++ barred (valuesOf joined))) (Text.trim field)
      negated (barred (valuesOf joined)) := by
  have inside := Text.trim_isInfix field
  cases cut with
  | differ joined whole earliest =>
      exact .differ _ rfl fun occurs => earliest (occurs.trans inside)
  | equal joined whole earliest never =>
      have noEquals : '=' ∉ Text.trim field := mt inside.mem earliest
      have here : ['!', '='] <:+: Text.trim field → ['!', '='] <:+: text := fun occurs => by
        rw [whole]
        exact List.infix_append_of_infix_left (occurs.trans inside)
      have later : ['!', '='] <:+: joined → ['!', '='] <:+: text := fun occurs => by
        rw [whole]
        exact occurs.trans (List.infix_append_right.trans List.infix_append_right)
      refine .equal _ rfl noEquals fun occurs => ?_
      rcases infix_append_equals occurs with before | ends | after
      · exact never (here before)
      · exact parted rfl ends
      · exact not_infix_barred (clean_valuesOf (mt later never)) after

theorem CutAt.head?_trim (cut : CutAt text field negated joined)
    (solid : Text.trim text = text) (nonempty : Text.trim field ≠ []) (rest : List Char) :
    (Text.trim field ++ rest).head? = text.head? := by
  have filled : field ≠ [] := by
    rintro rfl
    exact nonempty rfl
  obtain ⟨c, others, rfl⟩ := List.exists_cons_of_ne_nil filled
  have start : text.head? = some c := by
    rw [cut.whole]
    rfl
  have solidStart := (Text.trim_eq_self_iff.mp solid).1 c start
  have kept : (Text.trim (c :: others)).head? = some c :=
    Text.head?_trim_eq fun d first => by cases first; exact solidStart
  rw [List.head?_append, kept, start]
  rfl

/-- The last of the values ends where the text does. -/
theorem CutAt.getLast?_joined (cut : CutAt text field negated joined) {c : Char}
    (last : joined.getLast? = some c) : text.getLast? = some c := by
  rw [cut.whole, List.getLast?_append, getLast?_sign_append, last]
  rfl

theorem compares_equal_iff {several : Bool} :
    comparisonTest negated several = .equal ∨ comparisonTest negated several = .oneOf ↔
      negated = false := by
  cases negated <;> cases several <;> decide

theorem Reads.rewritten (reads : Reads text filter) (solid : Text.trim text = text)
    (parted : filter.test = .equal ∨ filter.test = .oneOf →
      filter.path.toList.getLast? ≠ some '!') :
    Text.trim (write filter).toList = (write filter).toList ∧
      Reads (write filter).toList filter := by
  cases reads with
  | absent field whole nonempty noEquals =>
      have same : (write ⟨String.ofList field, .absent, []⟩).toList = text := by
        rw [whole]
        simp [write]
      rw [same]
      exact ⟨solid, .absent field whole nonempty noEquals⟩
  | present field first whole nonempty noEquals =>
      have same : (write ⟨String.ofList field, .present, []⟩).toList = text := by
        rw [whole]
        simp [write]
      rw [same]
      exact ⟨solid, .present field first whole nonempty noEquals⟩
  | comparison field negated joined first last cut nonempty =>
      have texts := valueTexts_valuesOf joined
      have ends : ∀ c ∈ joined.getLast?, Text.isBlank c = false := fun c final =>
        (Text.trim_eq_self_iff.mp solid).2 c (cut.getLast?_joined final)
      have tells := not_endInQuestion_valuesOf ends fun asks => last (cut.getLast?_joined asks)
      have apart : negated = false → (Text.trim field).getLast? ≠ some '!' := by
        intro equality
        rw [String.toList_ofList] at parted
        exact parted (compares_equal_iff.mpr equality)
      rw [write_comparison, toList_written, String.toList_ofList]
      refine ⟨trim_signed nonempty (Text.trim_trim field) negated fun c => texts.solid_end, ?_⟩
      have again := Reads.comparison (Text.trim field) negated (barred (valuesOf joined))
        (by rwa [cut.head?_trim solid nonempty])
        (getLast?_ne_question (mt (getLast?_barred (by decide)).mp tells) _ negated)
        (cut.rewritten apart) (by rwa [Text.trim_trim])
      rwa [Text.trim_trim, texts.valuesOf_barred] at again

theorem parse_eq_ok_iff {expression : String} :
    parse expression = .ok filter ↔ Reads (Text.trim expression.toList) filter := by
  rw [← parseForm_eq_ok_iff, parse]
  cases parseForm (Text.trim expression.toList) <;> simp [Except.mapError]

theorem Reads.never_differs (reads : Reads text filter)
    (equality : filter.test = .equal ∨ filter.test = .oneOf) : ¬ ['!', '='] <:+: text := by
  cases reads with
  | absent field whole nonempty noEquals => simp at equality
  | present field first whole nonempty noEquals => simp at equality
  | comparison field negated joined first last cut nonempty =>
      cases cut with
      | differ joined whole earliest =>
          exact absurd (compares_equal_iff.mp equality) (by decide)
      | equal joined whole earliest never => exact never

theorem write_equality (equality : filter.test = .equal ∨ filter.test = .oneOf) :
    write filter = written filter.path false filter.values := by
  rcases equality with test | test <;> (rw [write, test]; rfl)

/-- A `!` at the end of a field and the sign of an equality are one sign. -/
theorem differs_of_bang (bang : field.getLast? = some '!') (rest : List Char) :
    ['!', '='] <:+: Text.trim (field ++ (sign false ++ rest)) := by
  obtain ⟨front, rfl⟩ := List.getLast?_eq_some_iff.mp bang
  have whole : front ++ ['!'] ++ (sign false ++ rest) = front ++ '!' :: '=' :: rest := by
    simp [sign]
  have start := Text.trimEnd_append_cons (c := '=') (by decide) [] rest
  rw [whole, Text.trim, Text.trimStart_append_cons (by decide),
    Text.trimEnd_append_cons (by decide), ← List.nil_append ('=' :: rest), start]
  exact ⟨Text.trimStart front, Text.trimEnd rest, by simp⟩

/-- Every filter that is read is in normal form, and the expression that it is written as is read
as the same filter, unless it is an equality whose field ends in `!`. -/
theorem normal_and_parse_write_iff (expression : String) (filter : Filter)
    (parsed : parse expression = .ok filter) :
    Normal filter ∧
      (parse (write filter) = .ok filter ↔
        (filter.test = .equal ∨ filter.test = .oneOf → filter.path.toList.getLast? ≠ some '!')) := by
  have reads := parse_eq_ok_iff.mp parsed
  refine ⟨reads.normal, fun again equality bang => ?_, fun parted => ?_⟩
  · refine (parse_eq_ok_iff.mp again).never_differs equality ?_
    rw [write_equality equality, toList_written]
    exact differs_of_bang bang _
  · obtain ⟨same, again⟩ := reads.rewritten (Text.trim_trim _) parted
    rw [parse_eq_ok_iff, same]
    exact again

/-- The field may hold signs and end in `!` where the sign is `!=`. -/
theorem signs_in_field_read_again :
    let filter : Filter := ⟨"x = y !", .noneOf, ["a", "?b", ""]⟩
    parse " x = y ! != a |?b|" = .ok filter ∧ Normal filter ∧
      parse "x = y !!=a|?b|" = .ok filter := by
  intro filter
  have parsed : parse " x = y ! != a |?b|" = .ok filter := by decide +kernel
  obtain ⟨normal, again⟩ := normal_and_parse_write_iff _ _ parsed
  exact ⟨parsed, normal, again.mpr fun equality => absurd equality (by decide)⟩

-- Without the blank the field and the sign of the equality are read as another comparison.
example : parse "a! =b" = .ok ⟨"a!", .equal, ["b"]⟩ ∧ parse "a!=b" = .ok ⟨"a", .differ, ["b"]⟩ := by
  decide +kernel

end KeyCustody.Filter
