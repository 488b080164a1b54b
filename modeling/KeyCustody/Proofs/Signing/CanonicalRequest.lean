import KeyCustody.Proofs.Signing.Headers
import KeyCustody.Proofs.Signing.Percent
import KeyCustody.Proofs.Text.Cutting

namespace KeyCustody.Signing

/-! # What a canonical request tells

A canonical request is cut back line by line: no part of it but the lines of the headers has a line
feed, and those end at the first line that is empty. So requests of one canonical form are the same
but for what the form leaves out on purpose. -/

variable {header : Header} {headers others : List Header}

/-- A path that ends in a slash. -/
def closed (path : List Char) : List Char :=
  if path.getLast? = some '/' then path else path ++ ['/']

theorem toList_canonicalPath (path : String) :
    (canonicalPath path).toList = Percent.encodePath (closed path.toList) := by
  have slash : Percent.encodePath ['/'] = ['/'] := by decide
  simp only [canonicalPath, closed, Percent.getLast?_encodePath, String.toList_ofList]
  split
  · rfl
  · rw [Percent.encodePath_append, slash]

/-- The paths are the same, or one is the other with a slash added where it had none. -/
def SameButSlash (path other : String) : Prop :=
  path = other ∨
    path.toList.getLast? ≠ some '/' ∧ other = path ++ "/" ∨
    other.toList.getLast? ≠ some '/' ∧ path = other ++ "/"

theorem closed_eq_iff {path other : List Char} :
    closed path = closed other ↔ path = other ∨
      path.getLast? ≠ some '/' ∧ other = path ++ ['/'] ∨
      other.getLast? ≠ some '/' ∧ path = other ++ ['/'] := by
  have ends (text : List Char) : (text ++ ['/']).getLast? = some '/' := List.getLast?_concat
  rw [closed, closed]
  by_cases first : path.getLast? = some '/' <;> by_cases second : other.getLast? = some '/'
  · simp [first, second]
  · have differ : path ≠ other := fun same => second (same ▸ first)
    simp [first, second, differ]
  · have differ : path ≠ other := fun same => first (same ▸ second)
    simp [first, second, differ, eq_comm]
  · have longer : other ≠ path ++ ['/'] := fun same => second (same ▸ ends path)
    have shorter : path ≠ other ++ ['/'] := fun same => first (same ▸ ends other)
    simp [first, second, longer, shorter]

theorem canonicalPath_eq_iff {path other : String} :
    canonicalPath path = canonicalPath other ↔ SameButSlash path other := by
  rw [← String.toList_inj, toList_canonicalPath, toList_canonicalPath, Percent.encodePath_inj,
    closed_eq_iff, SameButSlash]
  simp [← String.toList_inj]

/-- A header that makes one line, in which its name ends at the first colon. -/
structure Header.Lined (header : Header) : Prop where
  name : '\n' ∉ header.name.toList
  noColon : ':' ∉ header.name.toList
  value : '\n' ∉ header.value.toList

theorem eq_of_toLower_eq {c d : Char} (lower : c.toLower = d) (sign : d.toNat < 'a'.toNat) :
    c = d := by
  delta Char.toLower at lower
  split at lower
  · rename_i upper
    subst lower
    have least : 65 ≤ c.val.toNat := UInt32.le_iff_toNat_le.mp upper.1
    have greatest : c.val.toNat ≤ 90 := UInt32.le_iff_toNat_le.mp upper.2
    have raised : (c.val + ('a'.val - 'A'.val)).toNat = c.val.toNat + 32 := by
      rw [UInt32.toNat_add, show ('a'.val - 'A'.val).toNat = 32 from rfl]
      omega
    have below : (c.val + ('a'.val - 'A'.val)).toNat < 97 := sign
    omega
  · exact lower

theorem Header.Lined.normal (lined : header.Lined) : header.normal.Lined := by
  have absent {sign : Char} (low : sign.toNat < 'a'.toNat) (none : sign ∉ header.name.toList) :
      sign ∉ header.normal.name.toList := by
    simp only [Header.normal, String.toList_ofList, List.mem_map, not_exists, not_and]
    intro c member lower
    exact none (eq_of_toLower_eq lower low ▸ member)
  refine ⟨absent (by decide) lined.name, absent (by decide) lined.noColon, ?_⟩
  rw [Header.normal, String.toList_ofList]
  exact fun member => lined.value ((Text.trim_isInfix _).subset member)

/-- The line of a header before its line feed. -/
def Header.content (header : Header) : List Char :=
  header.name.toList ++ ':' :: header.value.toList

theorem Header.toList_line (header : Header) : header.line.toList = header.content ++ ['\n'] := by
  simp [Header.line, Header.content]

theorem Header.Lined.newline_not_mem (lined : header.Lined) : '\n' ∉ header.content := by
  simp [Header.content, lined.name, lined.value]

theorem Header.Lined.content_inj {other : Header} (lined : header.Lined)
    (linedOther : other.Lined) : header.content = other.content ↔ header = other := by
  rw [Header.content, Header.content,
    Text.append_cons_inj lined.noColon linedOther.noColon, String.toList_inj, String.toList_inj,
    ← Header.mk.injEq]

theorem flatMap_line_cons (header : Header) (headers : List Header) (rest : List Char) :
    (header :: headers).flatMap (fun header => header.line.toList) ++ rest =
      header.content ++ '\n' :: (headers.flatMap (fun header => header.line.toList) ++ rest) := by
  simp [Header.toList_line]

theorem lines_ne_empty (lined : header.Lined) (rest otherRest : List Char) :
    '\n' :: rest ≠ header.content ++ '\n' :: otherRest := by
  intro same
  rw [← List.nil_append ('\n' :: rest),
    Text.append_cons_inj List.not_mem_nil lined.newline_not_mem] at same
  simp [Header.content] at same

/-- The lines of headers end at the first line that is empty. -/
theorem lines_inj (lined : ∀ header ∈ headers, header.Lined)
    (othersLined : ∀ header ∈ others, header.Lined) {rest otherRest : List Char} :
    headers.flatMap (fun header => header.line.toList) ++ '\n' :: rest =
        others.flatMap (fun header => header.line.toList) ++ '\n' :: otherRest ↔
      headers = others ∧ rest = otherRest := by
  induction headers generalizing others with
  | nil =>
      cases others with
      | nil => simp
      | cons other others =>
          have first := othersLined other List.mem_cons_self
          rw [flatMap_line_cons]
          simp [lines_ne_empty first]
  | cons header headers induction =>
      have first := lined header List.mem_cons_self
      cases others with
      | nil =>
          rw [flatMap_line_cons]
          simp [(lines_ne_empty first _ _).symm]
      | cons other others =>
          have second := othersLined other List.mem_cons_self
          rw [flatMap_line_cons, flatMap_line_cons, Text.append_cons_inj
            first.newline_not_mem second.newline_not_mem, first.content_inj second,
            induction (fun header member => lined header (List.mem_cons_of_mem _ member))
              (fun header member => othersLined header (List.mem_cons_of_mem _ member))]
          simp [and_assoc]

/-- What is signed of a request besides its date. -/
structure Subject where
  method : String
  path : String
  headers : List Header
  body : Bytes

def Subject.canonical (subject : Subject) : String :=
  canonicalRequest subject.method subject.path subject.headers subject.body

/-- Its method and its headers make one line each. -/
structure Subject.Lined (subject : Subject) : Prop where
  method : '\n' ∉ subject.method.toList
  headers : ∀ header ∈ subject.headers, header.Lined

theorem Subject.Lined.normal {subject : Subject} (lined : subject.Lined) :
    ∀ header ∈ normalHeaders subject.headers, header.Lined := by
  intro header member
  obtain ⟨given, found, rfl⟩ := List.mem_map.mp ((normalHeaders_perm _).subset member)
  exact (lined.headers given found).normal

theorem Subject.toList_canonical (subject : Subject) :
    subject.canonical.toList = subject.method.toList ++ '\n' ::
      ((canonicalPath subject.path).toList ++ '\n' :: '\n' ::
        ((normalHeaders subject.headers).flatMap (fun header => header.line.toList) ++ '\n' ::
          ((signedNames subject.headers).toList ++ '\n' ::
            (Digest.sha256Hex subject.body).toList))) := by
  simp [Subject.canonical, canonicalRequest, String.toList_join, List.flatMap_map]

end KeyCustody.Signing
