import KeyCustody.Proofs.Url.Path
import KeyCustody.Settings
import Mathlib.Data.List.DropRight
import Mathlib.Data.List.TakeWhile

namespace KeyCustody.Url

/-! # Addresses that paths are put after

An endpoint is a scheme, an authority and perhaps a path. A literal text after its next slash is
read as the end of its path, and nothing else of the URL depends on that text. -/

theorem rdropWhile_append {p : Char → Bool} {front : List Char}
    (solid : ∀ c ∈ front.getLast?, ¬ p c) (text : List Char) :
    (front ++ text).rdropWhile p = front ++ text.rdropWhile p := by
  induction text using List.reverseRecOn with
  | nil =>
      rw [List.append_nil, List.rdropWhile_nil, List.append_nil, List.rdropWhile_eq_self_iff]
      exact fun filled => solid _ (List.getLast?_eq_getLast_of_ne_nil filled)
  | append_singleton text c induction =>
      rw [← List.append_assoc]
      by_cases dropped : p c
      · rw [List.rdropWhile_concat_pos _ _ _ dropped, List.rdropWhile_concat_pos _ _ _ dropped,
          induction]
      · rw [List.rdropWhile_concat_neg _ _ _ dropped, List.rdropWhile_concat_neg _ _ _ dropped,
          List.append_assoc]

/-- An address of the form `scheme://authority`, after which a path may follow. -/
structure Endpoint where
  scheme : List Char
  authority : List Char
  base : List Char
  schemeStart : ∃ c ∈ scheme.head?, c.isAlpha
  schemeChars : ∀ c ∈ scheme, isSchemeChar c
  authorityNamed : authority ≠ []
  authorityChars : ∀ c ∈ authority, endsAuthority true c = false ∧ isDropped c = false
  rooted : base = [] ∨ ∃ others, base = '/' :: others
  baseChars : ∀ c ∈ base, c ≠ '?' ∧ c ≠ '#' ∧ isDropped c = false

namespace Endpoint

variable (endpoint : Endpoint)

def chars : List Char :=
  endpoint.scheme ++ ':' :: '/' :: '/' :: (endpoint.authority ++ endpoint.base)

def text : String := String.ofList endpoint.chars

/-- The scheme as a URL has it. -/
def schemeText : String := String.ofList (endpoint.scheme.map Char.toLower)

/-- The address without the slashes at its end. -/
def trimmed : Endpoint :=
  { endpoint with
    base := endpoint.base.rdropWhile (· = '/')
    rooted := by
      rcases endpoint.rooted with empty | ⟨others, slash⟩
      · exact .inl (by rw [empty, List.rdropWhile_nil])
      · have start := List.rdropWhile_prefix (· = '/') endpoint.base
        rw [slash, List.prefix_cons_iff] at start
        rw [slash]
        exact start.imp_right fun ⟨rest, split, _⟩ => ⟨rest, split⟩
    baseChars := fun c member =>
      endpoint.baseChars c ((List.rdropWhile_prefix _ _).subset member) }

theorem slash_not_mem_authority : '/' ∉ endpoint.authority := fun member =>
  absurd (endpoint.authorityChars '/' member).1 (by decide)

theorem trimSlashes_text : trimSlashes endpoint.text = endpoint.trimmed.text := by
  have front : endpoint.chars =
      (endpoint.scheme ++ ':' :: '/' :: '/' :: endpoint.authority) ++ endpoint.base := by
    simp [chars]
  have solid : ∀ c ∈ (endpoint.scheme ++ ':' :: '/' :: '/' :: endpoint.authority).getLast?,
      ¬ decide (c = '/') := by
    intro c final
    have last : endpoint.authority.getLast? = some c := by
      rw [List.getLast?_append, List.getLast?_cons, List.getLast?_cons, List.getLast?_cons,
        List.getLast?_eq_getLast_of_ne_nil endpoint.authorityNamed] at final
      rw [List.getLast?_eq_getLast_of_ne_nil endpoint.authorityNamed]
      exact final
    have member := List.mem_of_getLast? last
    rw [decide_eq_true_iff]
    rintro rfl
    exact endpoint.slash_not_mem_authority member
  have trims := rdropWhile_append solid endpoint.base
  rw [← front] at trims
  rw [trimSlashes, text, text, String.toList_ofList]
  refine congrArg String.ofList (trims.trans ?_)
  simp [chars, trimmed]

end Endpoint

theorem essence_eq_self {text : List Char} (first : ∀ c ∈ text.head?, isEdge c = false)
    (last : ∀ c ∈ text.getLast?, isEdge c = false) (solid : ∀ c ∈ text, isDropped c = false) :
    essence text = text := by
  have front : text.dropWhile isEdge = text := by
    cases text with
    | nil => rfl
    | cons c rest => simp [first c rfl]
  have back : text.reverse.dropWhile isEdge = text.reverse := by
    cases backwards : text.reverse with
    | nil => rfl
    | cons c rest =>
        have final : c ∈ text.getLast? := by
          rw [← List.head?_reverse, backwards]
          rfl
        simp [last c final]
  rw [essence, front, back, List.reverse_reverse, List.filter_eq_self]
  simpa using solid

theorem scheme?_append {scheme : List Char} (start : ∃ c ∈ scheme.head?, c.isAlpha)
    (chars : ∀ c ∈ scheme, isSchemeChar c) (rest : List Char) :
    scheme? (scheme ++ ':' :: rest) = some (String.ofList (scheme.map Char.toLower), rest) := by
  obtain ⟨c, first, alpha⟩ := start
  obtain ⟨others, rfl⟩ := List.head?_eq_some_iff.mp first
  have taken : (c :: others ++ ':' :: rest).takeWhile isSchemeChar = c :: others := by
    rw [List.takeWhile_append_of_pos chars, List.takeWhile_cons_of_neg (by decide), List.append_nil]
  have left : (c :: others ++ ':' :: rest).dropWhile isSchemeChar = ':' :: rest := by
    rw [List.dropWhile_append_of_pos chars, List.dropWhile_cons_of_neg (by decide)]
  rw [List.cons_append, scheme?]
  simp only [← List.cons_append, if_pos alpha, left, taken]

theorem withPath_of_unmarked {text : List Char} (unmarked : ∀ c ∈ text, c ≠ '?' ∧ c ≠ '#')
    (scheme : String) (authority : Option Authority) (path : List Char → String) :
    withPath scheme authority path text = ⟨scheme, authority, path text, none, none⟩ := by
  have noFragment : text.takeWhile (· ≠ '#') = text := by
    simpa using fun c member => (unmarked c member).2
  have noQuery : text.takeWhile (· ≠ '?') = text := by
    simpa using fun c member => (unmarked c member).1
  have afterFragment : text.dropWhile (· ≠ '#') = [] := by
    simpa using fun c member => (unmarked c member).2
  have afterQuery : text.dropWhile (· ≠ '?') = [] := by
    simpa using fun c member => (unmarked c member).1
  rw [withPath, noFragment, noQuery, afterFragment, afterQuery]
  rfl

theorem map_eq_ok {found : Except Fault α} {build : α → Url} {url : Url}
    (read : found.map build = .ok url) : ∃ value, found = .ok value ∧ build value = url := by
  cases found with
  | error fault => cases read
  | ok value => exact ⟨value, rfl, Except.ok.inj read⟩

theorem scheme_of_bind {found : Except Fault α} {build : α → Url} {scheme : String} {url : Url}
    (kept : ∀ value, (build value).scheme = scheme)
    (read : (found >>= fun value => pure (build value)) = .ok url) : url.scheme = scheme := by
  cases found with
  | error fault => cases read
  | ok value =>
      cases read
      exact kept value

theorem scheme_of_readPlace {scheme : String} {text : List Char} {url : Url}
    (read : readPlace scheme text = .ok url) : url.scheme = scheme :=
  scheme_of_bind (fun _ => rfl) read

theorem scheme_of_readFile {text : List Char} {url : Url} (read : readFile text = .ok url) :
    url.scheme = "file" := by
  unfold readFile at read
  dsimp only at read
  split at read
  · split at read
    · exact scheme_of_bind (fun _ => rfl) read
    · cases read
      rfl
  · cases read
    rfl

theorem scheme_of_parse {text : String} {scheme : String} {rest : List Char} {url : Url}
    (cut : scheme? (essence text.toList) = some (scheme, rest)) (parsed : parse text = .ok url) :
    url.scheme = scheme := by
  rw [parse, cut] at parsed
  dsimp only at parsed
  split at parsed
  · rename_i file
    exact (scheme_of_readFile parsed).trans file.symm
  · split at parsed
    · exact scheme_of_readPlace parsed
    · split at parsed
      · exact scheme_of_readPlace parsed
      · cases parsed
        rfl

/-- Characters of a kind that none of the first codes has are no edges. -/
theorem isEdge_eq_false {kind : Char → Bool} {c : Char}
    (codes : ∀ code < 0x21, kind (Char.ofNat code) = false) (holds : kind c) : isEdge c = false := by
  by_contra edge
  simp only [isEdge, decide_eq_false_iff_not, not_not] at edge
  have refused := codes c.toNat (by omega)
  rw [Char.ofNat_toNat, holds] at refused
  cases refused

theorem isEdge_of_isSchemeChar {c : Char} (allowed : isSchemeChar c) : isEdge c = false :=
  isEdge_eq_false (by decide) allowed

theorem isEdge_of_unescaped {c : Char} (unescaped : inPath c = false) : isEdge c = false :=
  @isEdge_eq_false (fun c => !inPath c) c (by decide) (by rw [unescaped]; rfl)

theorem isDropped_of_solid {c : Char} (solid : isEdge c = false) : isDropped c = false := by
  simp only [isDropped, Bool.or_eq_false_iff, decide_eq_false_iff_not]
  refine ⟨⟨?_, ?_⟩, ?_⟩ <;> rintro rfl <;> exact absurd solid (by decide)

namespace Endpoint

variable (endpoint : Endpoint) {rest : List Char}

theorem essence_append (literal : Literal rest) :
    essence (endpoint.chars ++ '/' :: rest) = endpoint.chars ++ '/' :: rest := by
  have tail : ∀ c ∈ '/' :: rest, isEdge c = false := by
    rw [List.forall_mem_cons]
    exact ⟨by decide, fun c member => isEdge_of_unescaped (literal.unescaped c member)⟩
  refine essence_eq_self ?_ ?_ ?_
  · obtain ⟨c, first, -⟩ := endpoint.schemeStart
    obtain ⟨others, split⟩ := List.head?_eq_some_iff.mp first
    intro d start
    have same : d = c := by simpa [chars, split, eq_comm] using start
    rw [same]
    exact isEdge_of_isSchemeChar (endpoint.schemeChars c (List.mem_of_head? first))
  · intro c final
    rw [List.getLast?_append_of_ne_nil _ (List.cons_ne_nil '/' rest)] at final
    exact tail c (List.mem_of_getLast? final)
  · intro c member
    simp only [chars, List.mem_append, List.mem_cons] at member
    rcases member with (found | rfl | rfl | rfl | found | found) | rfl | found
    · exact isDropped_of_solid (isEdge_of_isSchemeChar (endpoint.schemeChars c found))
    · decide
    · decide
    · decide
    · exact (endpoint.authorityChars c found).2
    · exact (endpoint.baseChars c found).2.2
    · decide
    · exact isDropped_of_solid (tail c (List.mem_cons_of_mem _ found))

theorem scheme?_essence (literal : Literal rest) :
    scheme? (essence (endpoint.chars ++ '/' :: rest)) =
      some (endpoint.schemeText,
        '/' :: '/' :: (endpoint.authority ++ (endpoint.base ++ '/' :: rest))) := by
  have cut := scheme?_append endpoint.schemeStart endpoint.schemeChars
    ('/' :: '/' :: (endpoint.authority ++ (endpoint.base ++ '/' :: rest)))
  rw [endpoint.essence_append literal]
  simpa [chars, schemeText] using cut

theorem unmarked_append (literal : Literal rest) :
    ∀ c ∈ endpoint.base ++ '/' :: rest, c ≠ '?' ∧ c ≠ '#' := by
  intro c member
  rcases List.mem_append.mp member with found | found
  · exact ⟨(endpoint.baseChars c found).1, (endpoint.baseChars c found).2.1⟩
  · rcases List.mem_cons.mp found with rfl | later
    · decide
    · have unescaped := literal.unescaped c later
      constructor <;> rintro rfl <;> exact absurd unescaped (by decide)

theorem readPlace_append (special : isSpecial endpoint.schemeText) (literal : Literal rest) :
    readPlace endpoint.schemeText (endpoint.authority ++ (endpoint.base ++ '/' :: rest)) =
      (authorityOf endpoint.schemeText endpoint.authority).map fun authority =>
        ⟨endpoint.schemeText, some authority, pathAfterHost true (endpoint.base ++ '/' :: rest),
          none, none⟩ := by
  have inside : ∀ c ∈ endpoint.authority, (!endsAuthority true c) = true := fun c member => by
    rw [(endpoint.authorityChars c member).1]
    rfl
  obtain ⟨others, path⟩ : ∃ others, endpoint.base ++ '/' :: rest = '/' :: others := by
    rcases endpoint.rooted with base | ⟨others, base⟩
    · exact ⟨rest, by rw [base, List.nil_append]⟩
    · exact ⟨others ++ '/' :: rest, by rw [base, List.cons_append]⟩
  have unmarked := endpoint.unmarked_append literal
  rw [path] at unmarked ⊢
  rw [readPlace, special, List.takeWhile_append_of_pos inside, List.dropWhile_append_of_pos inside,
    List.takeWhile_cons_of_neg (by decide), List.dropWhile_cons_of_neg (by decide), List.append_nil]
  simp only [withPath_of_unmarked unmarked]
  cases authorityOf endpoint.schemeText endpoint.authority <;> rfl

/-- A literal text after the next slash changes nothing but the path. -/
theorem parse_append (special : isSpecial endpoint.schemeText) (literal : Literal rest) :
    parse (String.ofList (endpoint.chars ++ '/' :: rest)) =
      (authorityOf endpoint.schemeText endpoint.authority).map fun authority =>
        ⟨endpoint.schemeText, some authority, pathAfterHost true (endpoint.base ++ '/' :: rest),
          none, none⟩ := by
  have notFile : endpoint.schemeText ≠ "file" := by
    intro file
    rw [file] at special
    exact absurd special (by decide)
  have start : ('/' :: '/' :: (endpoint.authority ++ (endpoint.base ++ '/' :: rest))).dropWhile
      (isSlash true) = endpoint.authority ++ (endpoint.base ++ '/' :: rest) := by
    obtain ⟨c, others, named⟩ := List.exists_cons_of_ne_nil endpoint.authorityNamed
    have inside := (endpoint.authorityChars c (by simp [named])).1
    simp only [endsAuthority, Bool.or_eq_false_iff] at inside
    rw [List.dropWhile_cons_of_pos (by decide), List.dropWhile_cons_of_pos (by decide), named,
      List.cons_append, List.dropWhile_cons_of_neg (by simp [inside.1.1])]
  rw [parse, String.toList_ofList, endpoint.scheme?_essence literal]
  dsimp only
  rw [if_neg notFile, if_pos special, start, endpoint.readPlace_append special literal]

theorem scheme_eq {url : Url} (literal : Literal rest)
    (parsed : parse (String.ofList (endpoint.chars ++ '/' :: rest)) = .ok url) :
    url.scheme = endpoint.schemeText := by
  have cut := endpoint.scheme?_essence literal
  rw [← @String.toList_ofList (endpoint.chars ++ '/' :: rest)] at cut
  exact scheme_of_parse cut parsed

/-- A literal text after an endpoint changes nothing of its URL but the path, which it continues.
What stands in front of it does not depend on it, and is as written if that is literal too. -/
theorem parse_eq_ok_iff :
    ∃ front : List Char, (Literal endpoint.base → front = endpoint.base) ∧
      (∀ own, parse (String.ofList (endpoint.chars ++ ['/'])) = .ok own → isSpecial own.scheme →
        own.path = String.ofList (front ++ ['/']) ∧ own.query = none) ∧
      ∀ rest, Literal rest → ∀ url, isSpecial url.scheme →
        (parse (String.ofList (endpoint.chars ++ '/' :: rest)) = .ok url ↔
          ∃ own, parse (String.ofList (endpoint.chars ++ ['/'])) = .ok own ∧
            url = { own with path := String.ofList (front ++ '/' :: rest) }) := by
  obtain ⟨front, leads⟩ := pathAfterHost_append true endpoint.base
  refine ⟨front, fun literal => ?_, fun own alone special => ?_, fun rest literal url special => ?_⟩
  · have same := (leads [] literal_nil).symm.trans
      (pathAfterHost_literal true endpoint.rooted literal literal_nil)
    exact List.append_cancel_right (String.ofList_injective same)
  · rw [endpoint.scheme_eq literal_nil alone] at special
    rw [endpoint.parse_append special literal_nil] at alone
    obtain ⟨authority, -, rfl⟩ := map_eq_ok alone
    exact ⟨leads [] literal_nil, rfl⟩
  · constructor
    · intro parsed
      rw [endpoint.scheme_eq literal parsed] at special
      rw [endpoint.parse_append special literal] at parsed
      obtain ⟨authority, named, rfl⟩ := map_eq_ok parsed
      rw [endpoint.parse_append special literal_nil, named, leads rest literal]
      exact ⟨_, rfl, rfl⟩
    · rintro ⟨own, alone, rfl⟩
      have special : isSpecial endpoint.schemeText := by
        rw [← endpoint.scheme_eq literal_nil alone]
        exact special
      rw [endpoint.parse_append special literal_nil] at alone
      obtain ⟨authority, named, rfl⟩ := map_eq_ok alone
      rw [endpoint.parse_append special literal, named, leads rest literal]
      rfl

end Endpoint

end KeyCustody.Url
