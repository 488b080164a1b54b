import KeyCustody.Proofs.Json.Writing
import KeyCustody.Proofs.Text.Fields
import KeyCustody.Proofs.Text.Integer
import KeyCustody.Proofs.Text.Order
import Mathlib.Data.List.Basic

namespace KeyCustody.Json

/-! # Values on many lines

A value whose numbers are whole can be told from its text with one item or member to a line, also
where more follows. The text holds no control character but line breaks. -/

/-- All numbers in the value are whole numbers. -/
inductive Whole : Json → Prop where
  | null : Whole .null
  | boolean (value : Bool) : Whole (.boolean value)
  | integer (value : Int) : Whole (.number (.integer value))
  | text (value : String) : Whole (.text value)
  | array {items : List Json} (all : ∀ item ∈ items, Whole item) : Whole (.array items)
  | object {members : List (String × Json)} (all : ∀ member ∈ members, Whole member.2) :
      Whole (.object members)

@[simp] theorem whole_text (value : String) : Whole (.text value) := .text value

@[simp] theorem whole_integer (value : Int) : Whole (.number (.integer value)) := .integer value

@[simp] theorem whole_array {items : List Json} :
    Whole (.array items) ↔ ∀ item ∈ items, Whole item :=
  ⟨fun | .array all => all, .array⟩

@[simp] theorem whole_object {members : List (String × Json)} :
    Whole (.object members) ↔ ∀ member ∈ members, Whole member.2 :=
  ⟨fun | .object all => all, .object⟩

variable {json other : Json} {rest after : List Char} {depth : Nat}

/-- What may follow a value: nothing, a comma, or a new line. -/
def Closing (rest : List Char) : Prop := ∀ c ∈ rest.head?, c = ',' ∨ c = '\n'

theorem Closing.not_numeric (closing : Closing rest) :
    ∀ c ∈ rest.head?, Text.isNumeric c = false := by
  intro c first
  rcases closing c first with rfl | rfl <;> rfl

theorem quote_append_inj {first second : String}
    (same : (quote first).toList ++ rest = (quote second).toList ++ after) :
    first = second ∧ rest = after := by
  obtain ⟨marks, octets, spelled, marked, reads⟩ := quote_written first
  obtain ⟨others, otherOctets, otherSpelled, otherMarked, otherReads⟩ := quote_written second
  -- A reader takes the same string off both, and leaves the same.
  have read : readQuoted (octets ++ Text.Utf8.encode rest) =
      readQuoted (otherOctets ++ Text.Utf8.encode after) := by
    have encoded := congrArg Text.Utf8.encode same
    simp only [Text.Utf8.encode, List.flatMap_append] at encoded
    change Text.octets (quote first) ++ _ = Text.octets (quote second) ++ _ at encoded
    rw [spelled, otherSpelled] at encoded
    exact congrArg readQuoted (List.cons.inj encoded).2
  rw [readQuoted_append marked, readQuoted_append otherMarked] at read
  obtain ⟨taken, left⟩ := Prod.mk.inj read
  rw [taken, otherReads] at reads
  exact ⟨(Except.ok.inj reads).symm, Text.Utf8.encode_injective left⟩

theorem toList_lineBreak (depth : Nat) :
    (lineBreak depth).toList = '\n' :: List.replicate (2 * depth) ' ' := String.toList_ofList

/-- What stands between two lines of a depth. -/
def nextLine (depth : Nat) : List Char := ',' :: (lineBreak depth).toList

/-- Pieces between brackets, each on a line of its own. -/
def block (opening ending : Char) (depth : Nat) : List (List Char) → List Char
  | [] => [opening, ending]
  | piece :: pieces =>
      opening :: ((lineBreak (depth + 1)).toList ++
        ((nextLine (depth + 1)).intercalate (piece :: pieces) ++
          ((lineBreak depth).toList ++ [ending])))

theorem toList_indentedItems (depth : Nat) (items : List Json) :
    (indentedItems depth items).toList =
      (nextLine depth).intercalate (items.map fun item => (item.indentedAt depth).toList) := by
  induction items with
  | nil => rfl
  | cons item rest induction =>
      cases rest with
      | nil => simp [indentedItems]
      | cons next rest =>
          rw [indentedItems, List.map_cons, List.intercalate_cons_of_ne_nil (by simp), ← induction]
          · simp [nextLine]
          · simp

/-- A member as it stands on its line. -/
def memberText (depth : Nat) (member : String × Json) : List Char :=
  (quote member.1).toList ++ (": ".toList ++ (member.2.indentedAt depth).toList)

theorem toList_indentedMembers (depth : Nat) (members : List (String × Json)) :
    (indentedMembers depth members).toList =
      (nextLine depth).intercalate (members.map (memberText depth)) := by
  induction members with
  | nil => rfl
  | cons member rest induction =>
      obtain ⟨name, value⟩ := member
      cases rest with
      | nil => simp [indentedMembers, memberText]
      | cons next rest =>
          rw [indentedMembers, List.map_cons, List.intercalate_cons_of_ne_nil (by simp),
            ← induction]
          · simp [nextLine, memberText]
          · simp

theorem toList_array (depth : Nat) (items : List Json) :
    ((array items).indentedAt depth).toList =
      block '[' ']' depth (items.map fun item => (item.indentedAt (depth + 1)).toList) := by
  cases items with
  | nil =>
      rw [indentedAt]
      rfl
  | cons item rest =>
      have lines := toList_indentedItems (depth + 1) (item :: rest)
      rw [List.map_cons] at lines
      rw [indentedAt, List.map_cons, block, ← lines]
      simp

theorem toList_object (depth : Nat) (members : List (String × Json)) :
    ((object members).indentedAt depth).toList =
      block '\x7b' '\x7d' depth (members.map (memberText (depth + 1))) := by
  cases members with
  | nil =>
      rw [indentedAt]
      rfl
  | cons member rest =>
      have lines := toList_indentedMembers (depth + 1) (member :: rest)
      rw [List.map_cons] at lines
      rw [indentedAt, List.map_cons, block, ← lines]
      simp

/-- Texts that are told apart where something else follows a value. -/
def Apart (write : α → List Char) (value another : α) : Prop :=
  ∀ rest after, Closing rest → Closing after → write value ++ rest = write another ++ after →
    value = another ∧ rest = after

theorem intercalate_cons_append (between piece : List Char) (pieces : List (List Char))
    (rest : List Char) : between.intercalate (piece :: pieces) ++ rest =
      piece ++ if pieces = [] then rest else between ++ (between.intercalate pieces ++ rest) := by
  split
  · rename_i last
    rw [last, List.intercalate_singleton]
  · rename_i more
    rw [List.intercalate_cons_of_ne_nil more]
    simp

section

variable {write : α → List Char} {values others : List α}

theorem pieces_append_inj (apart : ∀ value ∈ values, ∀ another ∈ others, Apart write value another)
    (filled : values ≠ []) (otherFilled : others ≠ []) (breaks : rest.head? = some '\n')
    (ends : after.head? = some '\n')
    (same : (nextLine depth).intercalate (values.map write) ++ rest =
      (nextLine depth).intercalate (others.map write) ++ after) :
    values = others ∧ rest = after := by
  have closing {text : List Char} (pieces : List (List Char)) (ends : text.head? = some '\n') :
      Closing (if pieces = [] then text
        else nextLine depth ++ ((nextLine depth).intercalate pieces ++ text)) := by
    intro c first
    split at first
    · rw [ends] at first
      exact .inr (Option.some.inj first).symm
    · exact .inl (Option.some.inj first).symm
  induction values generalizing others with
  | nil => exact absurd rfl filled
  | cons value values induction =>
      obtain ⟨another, others, rfl⟩ := List.exists_cons_of_ne_nil otherFilled
      rw [List.map_cons, List.map_cons, intercalate_cons_append, intercalate_cons_append] at same
      obtain ⟨rfl, tails⟩ := apart value List.mem_cons_self another List.mem_cons_self _ _
        (closing _ breaks) (closing _ ends) same
      cases values with
      | nil =>
          cases others with
          | nil => exact ⟨rfl, by simpa using tails⟩
          | cons another others =>
              have first := congrArg List.head? tails
              simp [breaks, nextLine] at first
      | cons next values =>
          cases others with
          | nil =>
              have first := congrArg List.head? tails
              simp [ends, nextLine] at first
          | cons another others =>
              rw [if_neg (by simp), if_neg (by simp)] at tails
              obtain ⟨others, left⟩ := induction (fun value member another found =>
                apart value (List.mem_cons_of_mem _ member) another (List.mem_cons_of_mem _ found))
                (by simp) (by simp) (List.append_cancel_left tails)
              exact ⟨congrArg (value :: ·) others, left⟩

theorem block_append_inj {opening ending : Char}
    (apart : ∀ value ∈ values, ∀ another ∈ others, Apart write value another)
    (visible : ending ≠ '\n')
    (same : block opening ending depth (values.map write) ++ rest =
      block opening ending depth (others.map write) ++ after) :
    values = others ∧ rest = after := by
  -- An empty block has its closing bracket where another has a line break.
  cases values with
  | nil =>
      cases others with
      | nil => exact ⟨rfl, List.append_cancel_left same⟩
      | cons another others =>
          rw [List.map_nil, List.map_cons, block, block, toList_lineBreak] at same
          exact absurd (List.cons.inj (List.cons.inj same).2).1 visible
  | cons value values =>
      cases others with
      | nil =>
          rw [List.map_nil, List.map_cons, block, block, toList_lineBreak] at same
          exact absurd (List.cons.inj (List.cons.inj same).2).1.symm visible
      | cons another others =>
          rw [List.map_cons, List.map_cons, block, block] at same
          simp only [List.cons_append, List.append_assoc] at same
          have inner := List.append_cancel_left (List.cons.inj same).2
          obtain ⟨found, left⟩ := pieces_append_inj apart (by simp) (by simp)
            (by simp [toList_lineBreak]) (by simp [toList_lineBreak]) inner
          exact ⟨found, by simpa using List.append_cancel_left left⟩

end

/-- The characters that a value may start with. -/
def Starts : Json → Char → Prop
  | .null, c => c = 'n'
  | .boolean true, c => c = 't'
  | .boolean false, c => c = 'f'
  | .number _, c => Text.isNumeric c
  | .text _, c => c = '"'
  | .array _, c => c = '['
  | .object _, c => c = '\x7b'

/-- The values are of one kind, and the same where the kind has no content but itself. -/
inductive SameShape : Json → Json → Prop where
  | null : SameShape .null .null
  | boolean (value : Bool) : SameShape (.boolean value) (.boolean value)
  | number (first second : Number) : SameShape (.number first) (.number second)
  | text (first second : String) : SameShape (.text first) (.text second)
  | array (first second : List Json) : SameShape (.array first) (.array second)
  | object (first second : List (String × Json)) : SameShape (.object first) (.object second)

theorem sameShape_of_starts {c : Char} (starts : json.Starts c) (same : other.Starts c) :
    SameShape json other := by
  have letters : ∀ c ∈ ['n', 't', 'f', '"', '[', '\x7b'], Text.isNumeric c = false := by
    simp [Text.isNumeric]
  -- Any two shapes start with different characters.
  rcases json with _ | (_ | _) | _ | _ | _ | _ <;>
    rcases other with _ | (_ | _) | _ | _ | _ | _ <;>
    first
    | constructor
    | exfalso
      simp only [Starts] at starts same
      simp_all

theorem starts_indentedAt (whole : json.Whole) (depth : Nat) :
    ∃ c text, (json.indentedAt depth).toList = c :: text ∧ json.Starts c := by
  cases whole with
  | null => exact ⟨'n', _, by rw [indentedAt]; rfl, rfl⟩
  | boolean value => cases value <;> exact ⟨_, _, by rw [indentedAt]; rfl, rfl⟩
  | integer value =>
      obtain ⟨c, text, digits⟩ := List.exists_cons_of_ne_nil (Text.toList_integer_ne_nil value)
      refine ⟨c, text, by rw [indentedAt, Number.text, digits], ?_⟩
      exact Text.isNumeric_of_mem (digits ▸ List.mem_cons_self)
  | text value => exact ⟨'"', _, by rw [indentedAt, quote, String.toList_ofList]; rfl, rfl⟩
  | @array items all =>
      rw [toList_array]
      cases items with
      | nil => exact ⟨'[', _, rfl, rfl⟩
      | cons item rest => exact ⟨'[', _, rfl, rfl⟩
  | @object members all =>
      rw [toList_object]
      cases members with
      | nil => exact ⟨'\x7b', _, rfl, rfl⟩
      | cons member rest => exact ⟨'\x7b', _, rfl, rfl⟩

theorem sameShape_of_same (whole : json.Whole) (otherWhole : other.Whole)
    (same : (json.indentedAt depth).toList ++ rest = (other.indentedAt depth).toList ++ after) :
    SameShape json other := by
  obtain ⟨c, text, written, starts⟩ := starts_indentedAt whole depth
  obtain ⟨d, otherText, otherWritten, otherStarts⟩ := starts_indentedAt otherWhole depth
  rw [written, otherWritten] at same
  obtain ⟨rfl, -⟩ := List.cons.inj same
  exact sameShape_of_starts starts otherStarts

/-- The value is told apart from every other one, on lines of any depth. -/
def Tells (json : Json) : Prop :=
  ∀ other, Whole other → ∀ depth, Apart (fun value => (indentedAt depth value).toList) json other

theorem apart_memberText {member another : String × Json}
    (apart : Apart (fun value => (indentedAt depth value).toList) member.2 another.2) :
    Apart (memberText depth) member another := by
  intro rest after closing ends same
  simp only [memberText, List.append_assoc] at same
  obtain ⟨name, texts⟩ := quote_append_inj same
  obtain ⟨value, left⟩ := apart rest after closing ends (List.append_cancel_left texts)
  exact ⟨Prod.ext name value, left⟩

theorem Whole.tells (whole : json.Whole) : json.Tells := by
  induction whole with
  | null =>
      intro other otherWhole depth rest after closing ends same
      cases sameShape_of_same .null otherWhole same
      exact ⟨rfl, List.append_cancel_left same⟩
  | boolean value =>
      intro other otherWhole depth rest after closing ends same
      cases sameShape_of_same (.boolean value) otherWhole same
      exact ⟨rfl, List.append_cancel_left same⟩
  | integer value =>
      intro other otherWhole depth rest after closing ends same
      cases sameShape_of_same (.integer value) otherWhole same
      cases otherWhole with
      | integer another =>
          simp only [indentedAt, Number.text] at same
          obtain ⟨rfl, left⟩ :=
            Text.integer_append_inj closing.not_numeric ends.not_numeric same
          exact ⟨rfl, left⟩
  | text value =>
      intro other otherWhole depth rest after closing ends same
      cases sameShape_of_same (.text value) otherWhole same
      simp only [indentedAt] at same
      obtain ⟨rfl, left⟩ := quote_append_inj same
      exact ⟨rfl, left⟩
  | array all induction =>
      intro other otherWhole depth rest after closing ends same
      cases sameShape_of_same (.array all) otherWhole same
      cases otherWhole with
      | array otherAll =>
          simp only [toList_array] at same
          obtain ⟨rfl, left⟩ := block_append_inj (fun item member another found =>
            induction item member another (otherAll another found) (depth + 1)) (by decide) same
          exact ⟨rfl, left⟩
  | object all induction =>
      intro other otherWhole depth rest after closing ends same
      cases sameShape_of_same (.object all) otherWhole same
      cases otherWhole with
      | object otherAll =>
          simp only [toList_object] at same
          obtain ⟨rfl, left⟩ := block_append_inj (fun member known another found =>
            apart_memberText (induction member known another.2 (otherAll another found)
              (depth + 1))) (by decide) same
          exact ⟨rfl, left⟩

/-- Two values with the same text are the same. -/
theorem indented_injective (whole : json.Whole) (otherWhole : other.Whole)
    (same : json.indented = other.indented) : json = other := by
  have texts := congrArg (fun text => text.toList ++ []) same
  exact (whole.tells other otherWhole 0 [] [] nofun nofun texts).1

/-- A character that takes room on a line, or ends the line. -/
def Inked (c : Char) : Prop := c = '\n' ∨ 32 ≤ c.toNat

instance (c : Char) : Decidable (Inked c) := inferInstanceAs (Decidable (_ ∨ _))

theorem inked_of_mem_escape {c d : Char} (member : d ∈ escape c) : Inked d := by
  have letters : ∀ d ∈ ['"', '\\', 'n', 'r', 't', 'b', 'f', 'u', '0'], Inked d := by
    simp [Inked]
  have digits : ∀ value < 16, Inked (Text.Hex.digit value) := by decide
  unfold escape at member
  split_ifs at member with _ _ _ _ _ _ _ control
  case neg =>
      rw [List.mem_singleton.mp member]
      exact .inr (Nat.le_of_not_lt control)
  iterate 7
    · simp only [List.mem_cons, List.not_mem_nil, or_false] at member
      rcases member with rfl | rfl <;> exact letters _ (by decide)
  · simp only [List.mem_cons, List.not_mem_nil, or_false] at member
    rcases member with rfl | rfl | rfl | rfl | rfl | rfl
    iterate 4 exact letters _ (by decide)
    · exact digits _ (by omega)
    · exact digits _ (by omega)

theorem inked_of_isNumeric {c : Char} (numeric : Text.isNumeric c) : Inked c := by
  rw [Text.isNumeric, Bool.or_eq_true, beq_iff_eq] at numeric
  rcases numeric with digit | rfl
  · exact .inr (Nat.le_trans (by decide) (Char.isDigit_iff_toNat.mp digit).1)
  · decide

theorem inked_of_mem_quote {text : String} {c : Char} (member : c ∈ (quote text).toList) :
    Inked c := by
  have marks : Inked '"' := by decide
  rw [quote, String.toList_ofList, List.cons_append, List.mem_cons, List.mem_append,
    List.mem_singleton] at member
  rcases member with rfl | written | rfl
  · exact marks
  · obtain ⟨d, -, escaped⟩ := List.mem_flatMap.mp written
    exact inked_of_mem_escape escaped
  · exact marks

theorem inked_of_mem_lineBreak {c : Char} (member : c ∈ (lineBreak depth).toList) : Inked c := by
  rw [toList_lineBreak, List.mem_cons] at member
  rcases member with rfl | blank
  · exact .inl rfl
  · rw [List.eq_of_mem_replicate blank]
    exact .inr (by decide)

theorem inked_of_mem_pieces {pieces : List (List Char)} {c : Char}
    (inked : ∀ piece ∈ pieces, ∀ c ∈ piece, Inked c)
    (member : c ∈ (nextLine depth).intercalate pieces) : Inked c := by
  rcases Text.mem_intercalate member with between | ⟨piece, found, inside⟩
  · rcases List.mem_cons.mp between with rfl | gap
    · decide
    · exact inked_of_mem_lineBreak gap
  · exact inked piece found c inside

theorem inked_of_mem_block {opening ending c : Char} {pieces : List (List Char)}
    (brackets : Inked opening ∧ Inked ending) (inked : ∀ piece ∈ pieces, ∀ c ∈ piece, Inked c)
    (member : c ∈ block opening ending depth pieces) : Inked c := by
  cases pieces with
  | nil =>
      simp only [block, List.mem_cons, List.not_mem_nil, or_false] at member
      rcases member with rfl | rfl
      · exact brackets.1
      · exact brackets.2
  | cons piece rest =>
      simp only [block, List.mem_cons, List.mem_append, List.not_mem_nil, or_false] at member
      rcases member with rfl | first | lines | last | rfl
      · exact brackets.1
      · exact inked_of_mem_lineBreak first
      · exact inked_of_mem_pieces inked lines
      · exact inked_of_mem_lineBreak last
      · exact brackets.2

theorem inked_of_mem_memberText {member : String × Json} {c : Char}
    (inked : ∀ c ∈ (member.2.indentedAt depth).toList, Inked c)
    (found : c ∈ memberText depth member) : Inked c := by
  have colon : ∀ c ∈ ": ".toList, Inked c := by simp [Inked]
  rw [memberText, List.mem_append, List.mem_append] at found
  rcases found with name | gap | value
  · exact inked_of_mem_quote name
  · exact colon c gap
  · exact inked c value

/-- The text of a value holds no control character but line breaks. -/
theorem Whole.inked (whole : json.Whole) (depth : Nat) :
    ∀ c ∈ (json.indentedAt depth).toList, Inked c := by
  have literals : ∀ text ∈ ["null", "true", "false"], ∀ c ∈ text.toList, Inked c := by
    simp [Inked]
  induction whole generalizing depth with
  | null =>
      rw [indentedAt]
      exact literals _ (by decide)
  | boolean value =>
      rw [indentedAt]
      cases value
      · exact literals _ (by decide)
      · exact literals _ (by decide)
  | integer value =>
      rw [indentedAt, Number.text]
      exact fun c member => inked_of_isNumeric (Text.isNumeric_of_mem member)
  | text value =>
      rw [indentedAt]
      exact fun c => inked_of_mem_quote
  | array all induction =>
      rw [toList_array]
      refine fun c => inked_of_mem_block (by decide) ?_
      intro piece listed
      obtain ⟨item, member, rfl⟩ := List.mem_map.mp listed
      exact induction item member (depth + 1)
  | object all induction =>
      rw [toList_object]
      refine fun c => inked_of_mem_block (by decide) ?_
      intro piece listed
      obtain ⟨named, member, rfl⟩ := List.mem_map.mp listed
      exact fun c => inked_of_mem_memberText (induction named member (depth + 1))

theorem whole_setMember {name : String} {value : Json} {members : List (String × Json)}
    (whole : value.Whole) (all : ∀ member ∈ members, member.2.Whole) :
    ∀ member ∈ setMember name value members, member.2.Whole := by
  induction members with
  | nil =>
      rw [setMember, List.forall_mem_singleton]
      exact whole
  | cons member rest induction =>
      rw [setMember]
      rw [List.forall_mem_cons] at all
      split
      · simp only [List.forall_mem_cons]
        exact ⟨whole, all⟩
      · split
        · rw [List.forall_mem_cons]
          exact ⟨whole, all.2⟩
        · rw [List.forall_mem_cons]
          exact ⟨all.1, induction all.2⟩

theorem whole_sortedObject {members : List (String × Json)}
    (all : ∀ member ∈ members, member.2.Whole) : (sortedObject members).Whole := by
  rw [sortedObject, whole_object]
  suffices kept : ∀ start : List (String × Json), (∀ member ∈ start, member.2.Whole) →
      ∀ member ∈ members.foldl (fun sorted member => setMember member.1 member.2 sorted) start,
        member.2.Whole from kept [] nofun
  induction members with
  | nil => exact fun start whole => whole
  | cons member rest induction =>
      rw [List.forall_mem_cons] at all
      exact fun start whole => induction all.2 _ (whole_setMember all.1 whole)

mutual

theorem whole_sorted : ∀ {json : Json}, json.Whole → json.sorted.Whole
  | .null, whole => whole
  | .boolean _, whole => whole
  | .number _, whole => whole
  | .text _, whole => whole
  | .array items, whole => by
      rw [sorted, whole_array]
      exact whole_sortedItems (whole_array.mp whole)
  | .object members, whole => by
      rw [sorted]
      exact whole_sortedObject (whole_sortedMembers (whole_object.mp whole))

theorem whole_sortedItems : ∀ {items : List Json}, (∀ item ∈ items, item.Whole) →
    ∀ item ∈ sortedItems items, item.Whole
  | [], _ => nofun
  | item :: rest, all => by
      rw [List.forall_mem_cons] at all
      rw [sortedItems, List.forall_mem_cons]
      exact ⟨whole_sorted all.1, whole_sortedItems all.2⟩

theorem whole_sortedMembers : ∀ {members : List (String × Json)},
    (∀ member ∈ members, member.2.Whole) → ∀ member ∈ sortedMembers members, member.2.Whole
  | [], _ => nofun
  | (name, value) :: rest, all => by
      rw [List.forall_mem_cons] at all
      rw [sortedMembers, List.forall_mem_cons]
      exact ⟨whole_sorted all.1, whole_sortedMembers all.2⟩

end

end KeyCustody.Json
