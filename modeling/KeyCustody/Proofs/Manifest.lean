import KeyCustody.Manifest
import KeyCustody.Proofs.Json.Writing

namespace KeyCustody.Manifest

/-! # What a manifest says

A manifest is read exactly if its text gives one list of names, under its name in an object or as
the only item of an array. A text that gives none, or something else, or more, is refused. -/

open Json (Blank Document Fault Items Members Node Presents Reader Slot held)

variable {node value : Node} {values : List Node} {body : Bytes} {names : List String}
  {manifest : Manifest}

def listName : String := "obs_key_aliases"

/-- The values that stand in the place of the list. The names of an object have to be texts. -/
inductive Offers : Node → List Node → Prop where
  | member {members : Members} {named : List (String × Node)} (lists : members.Lists named) :
      Offers (.object members) (held named listName)
  | item {items : Items} {nodes : List Node} (lists : items.Lists nodes) :
      Offers (.array items) nodes

/-- The body gives the list once, as an array of these names. -/
def Supplies (body : Bytes) (names : List String) : Prop :=
  ∃ node value, Node.IsText node body ∧ Offers node [value] ∧
    Node.Means value (.array (names.map .text))

theorem whole_reader : Reader.Whole reader := by
  refine Reader.whole_record (List.pairwise_singleton _ _) ?_
  simp only [fields, List.forall_mem_singleton]
  exact Reader.whole_text.list.must _ _

theorem reader_eq_ok_iff : reader node = .ok manifest ↔
    ∃ values value, Presents [listName] node values ∧ values listName = [value] ∧
      Node.Means value (.array (manifest.names.map .text)) := by
  have independent : fields.Pairwise Slot.Independent := List.pairwise_singleton _ _
  have known : fields.map Slot.name = [listName] := rfl
  rw [reader, Json.record_eq_ok_iff independent, known]
  simp only [fields, Json.fillEach_cons, Json.fillEach_nil, Option.bind_eq_some_iff,
    Option.some.injEq, Json.take_must_eq_some_iff]
  constructor
  · intro ⟨values, presents, _, ⟨value, found, given, reads, built⟩, same⟩
    subst built same
    exact ⟨values, value, presents, given, Json.means_texts_iff.mpr reads⟩
  · intro ⟨values, value, presents, given, means⟩
    exact ⟨values, presents, _, ⟨value, _, given, Json.means_texts_iff.mp means, rfl⟩, rfl⟩

theorem held_in_turn (fits : values.length ≤ 1) :
    held ([listName].zip values) listName = values := by
  match values, fits with
  | [], _ => rfl
  | [value], _ => rfl

theorem offers_of_presents {found : String → List Node} (presents : Presents [listName] node found) :
    Offers node (found listName) := by
  cases presents with
  | object lists others => exact .member lists
  | array lists fits =>
      rw [held_in_turn fits]
      exact .item lists

theorem Offers.presents (offers : Offers node values) (fits : values.length ≤ 1)
    (whole : node.skip = .ok ()) :
    ∃ found, Presents [listName] node found ∧ found listName = values := by
  cases offers with
  | member lists => exact ⟨_, lists.presents whole _, rfl⟩
  | item lists => exact ⟨_, .array lists fits, held_in_turn fits⟩

theorem run_eq_ok_iff : reader.run body = .ok manifest ↔ Supplies body manifest.names := by
  rw [whole_reader.run_eq_ok_iff, Supplies]
  refine exists_congr fun node => ?_
  rw [reader_eq_ok_iff]
  constructor
  · intro ⟨text, values, value, presents, given, means⟩
    exact ⟨value, text, given ▸ offers_of_presents presents, means⟩
  · intro ⟨value, text, offers, means⟩
    obtain ⟨found, presents, given⟩ := offers.presents (Nat.le_refl 1) text.skip
    exact ⟨text, found, value, presents, given, means⟩

theorem parse_eq_ok_iff : parse body = .ok manifest ↔ Supplies body manifest.names := by
  rw [← run_eq_ok_iff, parse]
  cases reader.run body <;> simp [Except.mapError]

theorem parse_eq_error (refused : ¬ ∃ names, Supplies body names) :
    ∃ fault, parse body = .error (.manifest (.unreadable fault)) := by
  cases read : reader.run body with
  | ok manifest => exact absurd ⟨_, run_eq_ok_iff.mp read⟩ refused
  | error fault => exact ⟨fault, by rw [parse, read]; rfl⟩

/-- A text that does not give one list of names and nothing else. -/
inductive Deficient : Bytes → Prop where
  | missing {node : Node} {body : Bytes} (text : Node.IsText node body) (offers : Offers node []) :
      Deficient body
  | repeated {node first second : Node} {others : List Node} {body : Bytes}
      (text : Node.IsText node body) (offers : Offers node (first :: second :: others)) :
      Deficient body
  | null {node : Node} {values : List Node} {body : Bytes} (text : Node.IsText node body)
      (offers : Offers node values) (given : .null ∈ values) : Deficient body
  | noArray {node value : Node} {values : List Node} {body : Bytes} (text : Node.IsText node body)
      (offers : Offers node values) (given : value ∈ values)
      (other : ∀ items, value ≠ .array items) : Deficient body
  | noText {node item : Node} {items : Items} {values nodes : List Node} {body : Bytes}
      (text : Node.IsText node body) (offers : Offers node values) (given : .array items ∈ values)
      (lists : items.Lists nodes) (listed : item ∈ nodes) (other : ∀ quoted, item ≠ .text quoted) :
      Deficient body
  /-- Digits may follow a number, and then it is another one. -/
  | trailing {node : Node} {front rest : Bytes} (text : Node.IsText node front)
      (noNumber : ∀ numeral, node ≠ .number numeral) (more : ¬ Blank rest) :
      Deficient (front ++ rest)

theorem Offers.unique {others : List Node} (offers : Offers node values)
    (otherOffers : Offers node others) : values = others := by
  cases offers with
  | member lists =>
      cases otherOffers with
      | member otherLists => rw [lists.unique otherLists]
  | item lists =>
      cases otherOffers with
      | item otherLists => exact lists.unique otherLists

theorem Supplies.given (supplies : Supplies body names) (text : Node.IsText node body)
    (offers : Offers node values) :
    ∃ value, values = [value] ∧ Node.Means value (.array (names.map .text)) := by
  obtain ⟨other, value, otherText, otherOffers, means⟩ := supplies
  rw [otherText.unique text] at otherOffers
  exact ⟨value, offers.unique otherOffers, means⟩

/-- Every item of an array of names is a text. -/
theorem text_of_means {items : Items} {nodes : List Node}
    (means : Node.Means (.array items) (.array (names.map .text))) (lists : items.Lists nodes)
    {item : Node} (listed : item ∈ nodes) : ∃ quoted, item = .text quoted := by
  obtain ⟨_, others, same, otherLists, all⟩ :=
    Reader.list_eq_ok_iff.mp (Json.means_texts_iff.mp means)
  cases same
  have texts : List.Forall₂ (fun node name => (∃ quoted, node = .text quoted) ∧
      Reader.text node = .ok name) others names :=
    all.imp fun node name read =>
      ⟨(Reader.text_eq_ok_iff.mp read).imp fun _ => And.left, read⟩
  exact ((List.forall₂_and_left _ _).mp texts).1 item (otherLists.unique lists ▸ listed)

theorem Deficient.not_supplies (deficient : Deficient body) : ¬ Supplies body names := by
  intro supplies
  cases deficient with
  | missing text offers =>
      obtain ⟨value, given, means⟩ := supplies.given text offers
      simp at given
  | repeated text offers =>
      obtain ⟨value, given, means⟩ := supplies.given text offers
      simp at given
  | null text offers given =>
      obtain ⟨value, only, means⟩ := supplies.given text offers
      simp only [only, List.mem_singleton] at given
      subst given
      cases means
  | noArray text offers given other =>
      obtain ⟨value, only, means⟩ := supplies.given text offers
      simp only [only, List.mem_singleton] at given
      subst given
      cases means
      exact other _ rfl
  | noText text offers given lists listed other =>
      obtain ⟨value, only, means⟩ := supplies.given text offers
      simp only [only, List.mem_singleton] at given
      subst given
      obtain ⟨quoted, isText⟩ := text_of_means means lists listed
      exact other quoted isText
  | @trailing node front rest text noNumber more =>
      obtain ⟨other, value, otherText, -⟩ := supplies
      have read := (text.read_append noNumber rest).symm.trans otherText.read
      simp only [Document.mk.injEq, Bool.not_eq_false', List.isEmpty_iff] at read
      exact more (Json.skipSpace_eq_nil_iff.mp read.2)

/-- Members with other names may stand around the list, in any order. -/
theorem supplies_of_writtenAs {before after : List (String × Json)}
    (apart : ∀ member ∈ before ++ after, member.1 ≠ listName)
    (text : (Json.object (before ++ (listName, .array (names.map .text)) :: after)).WrittenAs body) :
    Supplies body names := by
  obtain ⟨node, text, means⟩ := text
  cases means with
  | object means =>
      obtain ⟨named, lists, all⟩ := means.lists
      have given := Json.forall₂_held all listName
      rw [Json.held_of_apart apart] at given
      obtain ⟨value, only, means⟩ := Json.exists_of_means_one given
      exact ⟨_, value, text, only ▸ .member lists, means⟩

/-- A body is read as a list of names exactly if it supplies that list once, and is refused if it
supplies none. So an object with the list under its name is read, whatever else it holds; and a body
without a list, with two, with something else in its place, or with more behind it is refused. -/
theorem read_exactly_as_supplied :
    (∀ body names, parse body = .ok ⟨names⟩ ↔ Supplies body names) ∧
    (∀ body, (¬ ∃ names, Supplies body names) →
      ∃ fault, parse body = .error (.manifest (.unreadable fault))) ∧
    (∀ names before after, (∀ member ∈ before ++ after, member.1 ≠ listName) → ∀ body,
      (Json.object (before ++ (listName, .array (names.map .text)) :: after)).WrittenAs body →
        parse body = .ok ⟨names⟩) ∧
    ∀ body, Deficient body → ∃ fault, parse body = .error (.manifest (.unreadable fault)) := by
  refine ⟨fun body names => parse_eq_ok_iff, fun body => parse_eq_error, ?_, ?_⟩
  · intro names before after apart body text
    exact parse_eq_ok_iff.mpr (supplies_of_writtenAs apart text)
  · intro body deficient
    exact parse_eq_error fun ⟨names, supplies⟩ => deficient.not_supplies supplies

example : parse (Text.octets "[[\"a\", \"b\"]] ") = .ok ⟨["a", "b"]⟩ := by decide +kernel

end KeyCustody.Manifest
