import KeyCustody.Proofs.Text.Fields
import KeyCustody.Url.Reader

namespace KeyCustody.Url

/-! # Paths, segment by segment

A path is read from its first segment on, and where its front leads does not depend on what
follows. So a literal path, none of whose segments leads elsewhere or is escaped, comes unchanged
after whatever the text in front of it is read as. -/

variable {segment text rest : List Char} {segments : List (List Char)}

/-- Where a segment leads from a place, given backwards, if another one follows. -/
def reach (place : List (List Char)) (segment : List Char) : List (List Char) :=
  if isParent segment then place.tail
  else if isHere segment then place
  else escape inPath segment :: place

theorem walk_cons (place : List (List Char)) (segment : List Char) (more : segments ≠ []) :
    walk place (segment :: segments) = walk (reach place segment) segments := by
  obtain ⟨next, others, rfl⟩ := List.exists_cons_of_ne_nil more
  rw [reach, walk]
  · cases isParent segment <;> cases isHere segment <;> rfl
  · simp

theorem walk_append (place front : List (List Char)) (more : segments ≠ []) :
    walk place (front ++ segments) = walk (front.foldl reach place) segments := by
  induction front generalizing place with
  | nil => rfl
  | cons segment front induction =>
      rw [List.cons_append, walk_cons place segment (List.append_ne_nil_of_right_ne_nil front more),
        induction, List.foldl_cons]

/-- A segment that is kept as it is written. -/
structure Kept (segment : List Char) : Prop where
  unescaped : ∀ c ∈ segment, inPath c = false
  notHere : isHere segment = false
  notParent : isParent segment = false

-- A quantifier over the members of a text could be taken for one over all characters.
instance (segment : List Char) : Decidable (Kept segment) :=
  decidable_of_iff
    (segment.all (fun c => !inPath c) ∧ isHere segment = false ∧ isParent segment = false)
    ⟨fun ⟨unescaped, notHere, notParent⟩ => ⟨by simpa using unescaped, notHere, notParent⟩,
      fun kept => ⟨by simpa using kept.unescaped, kept.notHere, kept.notParent⟩⟩

theorem escape_eq_self {isEscaped : Char → Bool} (unescaped : ∀ c ∈ text, isEscaped c = false) :
    escape isEscaped text = text := by
  induction text with
  | nil => rfl
  | cons c rest induction =>
      rw [List.forall_mem_cons] at unescaped
      have later := induction unescaped.2
      rw [escape] at later
      rw [escape, List.flatMap_cons, later, unescaped.1]
      rfl

theorem Kept.reach_eq (kept : Kept segment) (place : List (List Char)) :
    reach place segment = segment :: place := by
  rw [reach, kept.notParent, kept.notHere, escape_eq_self kept.unescaped]
  rfl

theorem walk_kept (place : List (List Char)) (kept : ∀ segment ∈ segments, Kept segment) :
    walk place segments = place.reverse ++ segments := by
  induction segments generalizing place with
  | nil => simp [walk]
  | cons segment others induction =>
      rw [List.forall_mem_cons] at kept
      cases others with
      | nil =>
          have self := escape_eq_self kept.1.unescaped
          simp [walk, kept.1.notParent, kept.1.notHere, self]
      | cons next others =>
          rw [walk_cons place segment (List.cons_ne_nil next others), kept.1.reach_eq,
            induction _ kept.2]
          simp

/-- A text that is kept as it is written where it stands in a path. -/
structure Literal (text : List Char) : Prop where
  noBackslash : '\\' ∉ text
  kept : ∀ segment ∈ Text.fields '/' text, Kept segment

instance (text : List Char) : Decidable (Literal text) :=
  decidable_of_iff
    ('\\' ∉ text ∧ (Text.fields '/' text).all fun segment => decide (Kept segment))
    ⟨fun ⟨noBackslash, kept⟩ => ⟨noBackslash, by simpa using kept⟩,
      fun literal => ⟨literal.noBackslash, by simpa using literal.kept⟩⟩

theorem literal_append_iff {front rest : List Char} :
    Literal (front ++ '/' :: rest) ↔ Literal front ∧ Literal rest := by
  have pieces := Text.fields_append_cons '/' front rest
  constructor
  · rintro ⟨noBackslash, kept⟩
    rw [pieces, List.forall_mem_append] at kept
    simp only [List.mem_append, List.mem_cons, not_or] at noBackslash
    exact ⟨⟨noBackslash.1, kept.1⟩, ⟨noBackslash.2.2, kept.2⟩⟩
  · rintro ⟨first, second⟩
    refine ⟨?_, ?_⟩
    · simp [first.noBackslash, second.noBackslash]
    · rw [pieces, List.forall_mem_append]
      exact ⟨first.kept, second.kept⟩

theorem literal_nil : Literal [] := by decide

theorem Literal.unescaped (literal : Literal text) : ∀ c ∈ text, inPath c = false := by
  intro c member
  rcases Text.mem_fields_or_eq '/' member with rfl | ⟨segment, found, inside⟩
  · decide
  · exact (literal.kept segment found).unescaped c inside

theorem segments_append (special : Bool) (front rest : List Char) :
    Url.segments special (front ++ '/' :: rest) =
      Url.segments special front ++ Url.segments special rest := by
  simp [Url.segments, isSlash, Text.fields_append_cons]

theorem Literal.segments_eq (literal : Literal text) (special : Bool) :
    Url.segments special text = Text.fields '/' text := by
  have same : (text.map fun c => if isSlash special c then '/' else c) = text := by
    refine (List.map_congr_left fun c member => ?_).trans (List.map_id text)
    have differs : c ≠ '\\' := ne_of_mem_of_not_mem member literal.noBackslash
    by_cases slash : c = '/' <;> simp [isSlash, slash, differs]
  rw [Url.segments, same]

/-- Where a text leads does not depend on the literal text after the next slash. -/
theorem pathOf_append (special : Bool) (front : List Char) (literal : Literal rest) :
    pathOf special (front ++ '/' :: rest) = String.ofList
      (((Url.segments special front).foldl reach []).reverse.flatMap ('/' :: ·) ++
        '/' :: rest) := by
  have more := Text.fields_ne_nil '/' rest
  rw [pathOf, segments_append, literal.segments_eq, walk_append [] _ more, walk_kept _ literal.kept]
  have whole := Text.cons_joinFields_append '/'
    ((Url.segments special front).foldl reach []).reverse more
  rw [Text.joinFields_fields] at whole
  rw [← whole]
  exact (@String.ofList_append ['/'] _).symm

theorem pathOf_literal (special : Bool) (literal : Literal text) :
    pathOf special text = String.ofList ('/' :: text) := by
  rw [pathOf, literal.segments_eq, walk_kept _ literal.kept, List.reverse_nil, List.nil_append,
    Text.joinFields_fields]
  exact (@String.ofList_append ['/'] text).symm

theorem pathAfterHost_literal (special : Bool) (rooted : text = [] ∨ ∃ others, text = '/' :: others)
    (base : Literal text) (literal : Literal rest) :
    pathAfterHost special (text ++ '/' :: rest) = String.ofList (text ++ '/' :: rest) := by
  rcases rooted with rfl | ⟨others, rfl⟩
  · exact pathOf_literal special literal
  · have others := (@literal_append_iff [] others).mp base
    exact pathOf_literal special (literal_append_iff.mpr ⟨others.2, literal⟩)

/-- The path after an authority, up to the slash before a literal text. -/
theorem pathAfterHost_append (special : Bool) (base : List Char) :
    ∃ front : List Char, ∀ rest, Literal rest →
      pathAfterHost special (base ++ '/' :: rest) = String.ofList (front ++ '/' :: rest) := by
  cases base with
  | nil => exact ⟨[], fun rest literal => pathOf_literal special literal⟩
  | cons c others =>
      have leads (text : List Char) : ∃ front : List Char, ∀ rest, Literal rest →
          pathOf special (text ++ '/' :: rest) = String.ofList (front ++ '/' :: rest) :=
        ⟨_, fun rest literal => pathOf_append special text literal⟩
      simp only [List.cons_append, pathAfterHost]
      split
      · exact leads others
      · exact leads (c :: others)

def isUnreserved (c : Char) : Bool := c.isAlphanum || ['-', '.', '_', '~'].contains c

/-- A name of unreserved characters that is not taken for a place. -/
structure PlainName (name : List Char) : Prop where
  unreserved : ∀ c ∈ name, isUnreserved c
  notHere : name ≠ ['.']
  notParent : name ≠ ['.', '.']

instance (name : List Char) : Decidable (PlainName name) :=
  decidable_of_iff (name.all isUnreserved ∧ name ≠ ['.'] ∧ name ≠ ['.', '.'])
    ⟨fun ⟨unreserved, notHere, notParent⟩ => ⟨by simpa using unreserved, notHere, notParent⟩,
      fun plain => ⟨by simpa using plain.unreserved, plain.notHere, plain.notParent⟩⟩

theorem toNat_lt_of_isUnreserved {c : Char} (unreserved : isUnreserved c) : c.toNat < 0x80 := by
  rw [isUnreserved, Bool.or_eq_true] at unreserved
  rcases unreserved with named | sign
  · have bound : c.val ≤ 'z'.val := by
      have name : (c.isUpper || c.isLower) = true ∨ c.isDigit = true := Bool.or_eq_true_iff.mp named
      rcases name with letter | digit
      · rcases Bool.or_eq_true_iff.mp letter with upper | lower
        · exact UInt32.le_trans (of_decide_eq_true upper).2 (by decide)
        · exact of_decide_eq_true (Bool.and_eq_true_iff.mp lower).2
      · exact UInt32.le_trans (of_decide_eq_true (Bool.and_eq_true_iff.mp digit).2) (by decide)
    exact Nat.lt_of_le_of_lt (UInt32.le_iff_toNat_le.mp bound) (by decide)
  · simp only [List.contains_iff_mem, List.mem_cons, List.not_mem_nil, or_false] at sign
    rcases sign with rfl | rfl | rfl | rfl <;> decide

/-- What holds of the unreserved characters among the first ones, holds of all. -/
theorem unreserved_cases {P : Char → Prop} {c : Char} (unreserved : isUnreserved c)
    (holds : ∀ code < 0x80, isUnreserved (Char.ofNat code) → P (Char.ofNat code)) : P c := by
  have found := holds c.toNat (toNat_lt_of_isUnreserved unreserved)
  rw [Char.ofNat_toNat] at found
  exact found unreserved

theorem inPath_of_isUnreserved {c : Char} (unreserved : isUnreserved c) : inPath c = false :=
  unreserved_cases (P := fun c => inPath c = false) unreserved (by decide)

theorem toLower_ne_percent {c : Char} (unreserved : isUnreserved c) : c.toLower ≠ '%' :=
  unreserved_cases (P := fun c => c.toLower ≠ '%') unreserved (by decide)

theorem toLower_eq_dot {c : Char} (unreserved : isUnreserved c) (dot : c.toLower = '.') : c = '.' :=
  unreserved_cases (P := fun c => c.toLower = '.' → c = '.') unreserved (by decide) dot

theorem eq_of_map_toLower {name dots : List Char} (unreserved : ∀ c ∈ name, isUnreserved c)
    (dotted : ∀ c ∈ dots, c = '.') (lower : name.map Char.toLower = dots) : name = dots := by
  have same : name.map Char.toLower = name := by
    refine (List.map_congr_left fun c member => ?_).trans (List.map_id name)
    have dot := dotted c.toLower (lower ▸ List.mem_map_of_mem member)
    exact dot.trans (toLower_eq_dot (unreserved c member) dot).symm
  exact same.symm.trans lower

theorem PlainName.kept {name : List Char} (plain : PlainName name) : Kept name := by
  have noPercent : ∀ form : List Char, '%' ∈ form → name.map Char.toLower ≠ form := by
    rintro form member rfl
    obtain ⟨c, found, percent⟩ := List.mem_map.mp member
    exact toLower_ne_percent (plain.unreserved c found) percent
  have here := mt (@eq_of_map_toLower name ['.'] plain.unreserved (by simp)) plain.notHere
  have parent :=
    mt (@eq_of_map_toLower name ['.', '.'] plain.unreserved (by simp)) plain.notParent
  refine ⟨fun c member => inPath_of_isUnreserved (plain.unreserved c member), ?_, ?_⟩
  · simp [isHere, here, noPercent]
  · simp [isParent, parent, noPercent]

theorem PlainName.literal {name : List Char} (plain : PlainName name) : Literal name := by
  have noSlash : '/' ∉ name := fun member => absurd (plain.unreserved _ member) (by decide)
  have whole : Text.fields '/' name = [name] := by
    rw [Text.fields_eq_splitOn]
    exact List.splitOn_eq_singleton noSlash
  refine ⟨fun member => absurd (plain.unreserved _ member) (by decide), ?_⟩
  rw [whole]
  simpa using plain.kept

end KeyCustody.Url
