import KeyCustody.Proofs.Cloud.Requests
import KeyCustody.Proofs.Cloud.SignedRequests
import KeyCustody.Proofs.Json.Shapes
import KeyCustody.Proofs.Json.Writing

namespace KeyCustody.Key

/-! # Listings of keys

A listing may be sparse: what a key does not have, and texts that are empty, may be left out. It is
read as exactly the keys that it shows, or not at all; one key that cannot be read is enough for
that. -/

open Json (Members Node Presence Presents Reader Slot held)

variable {node : Node} {detail : Detail}

structure Column where
  name : String
  presence : Presence
  get : Detail → Option String

def Detail.columns : List Column :=
  [⟨"key_id", .required, fun detail => some detail.keyId⟩,
    ⟨"domain_id", .plain, fun detail => some detail.domainId⟩,
    ⟨"key_alias", .optional, Detail.aliasName⟩,
    ⟨"key_description", .optional, Detail.description⟩,
    ⟨"key_spec", .plain, fun detail => some detail.spec⟩,
    ⟨"key_usage", .optional, Detail.usage⟩,
    ⟨"key_state", .plain, fun detail => some detail.state⟩,
    ⟨"default_key_flag", .plain, fun detail => some detail.defaultFlag⟩,
    ⟨"keystore_id", .plain, fun detail => some detail.keystoreId⟩,
    ⟨"key_rotation_enabled", .optional, Detail.rotationEnabled⟩,
    ⟨"origin", .optional, Detail.origin⟩,
    ⟨"creation_date", .optional, Detail.creationDate⟩]

/-- An object with every column of a key, among any other members. -/
def Detail.ShownAs (detail : Detail) (json : Json) : Prop :=
  ∃ members, json = .object members ∧ ∀ column ∈ Detail.columns,
    column.presence.Shows (column.get detail) (held members column.name)

/-- A tree that gives every column of a key. What else it holds need only be JSON. -/
def Detail.Laid (node : Node) (detail : Detail) : Prop :=
  ∃ values, Presents (Detail.columns.map Column.name) node values ∧ ∀ column ∈ Detail.columns,
    column.presence.ShowsIn (column.get detail) (values column.name)

theorem Detail.ShownAs.laid {json : Json} (shows : detail.ShownAs json)
    (means : Node.Means node json) : Detail.Laid node detail := by
  obtain ⟨members, isObject, shows⟩ := shows
  subst isObject
  obtain ⟨values, presents, given⟩ := means.presents (Detail.columns.map Column.name)
  exact ⟨values, presents, fun column known => ⟨_, given column.name, shows column known⟩⟩

theorem laid_of_shown {details : List Detail} {shown : List Json} {nodes : List Node}
    (shows : List.Forall₂ Detail.ShownAs details shown)
    (means : List.Forall₂ Node.Means nodes shown) : List.Forall₂ Detail.Laid nodes details := by
  induction shows generalizing nodes with
  | nil => simpa using means
  | cons shows _ rest =>
      cases means with
      | cons means all => exact .cons (shows.laid means) (rest all)

theorem Detail.fields_independent : Detail.fields.Pairwise Slot.Independent := by
  simp only [Detail.fields, List.pairwise_cons, List.forall_mem_cons, List.not_mem_nil,
    false_implies, implies_true, List.Pairwise.nil, and_true]
  and_intros <;>
    exact Json.independent_of_puts (by decide) (fun _ _ => rfl) (fun _ _ => rfl) fun _ _ _ => rfl

theorem Detail.reader_eq_ok_iff : Detail.reader node = .ok detail ↔ Detail.Laid node detail := by
  have known : Detail.fields.map Slot.name = Detail.columns.map Column.name := rfl
  rw [Detail.reader, Json.record_eq_ok_iff Detail.fields_independent, known]
  refine exists_congr fun values => and_congr_right fun _ => ?_
  -- Each field takes a text that its place shows; the twelve texts make up the detail.
  simp only [Detail.fields, Json.fillEach_cons, Json.fillEach_nil, Option.bind_eq_some_iff,
    Json.take_required_eq_some_iff, Json.take_plain_eq_some_iff, Json.take_optional_eq_some_iff,
    exists_exists_and_eq_and, Option.some.injEq, Detail.columns, List.forall_mem_cons, Json.name_must,
    Json.name_may]
  constructor
  · intro ⟨_, keyShown, _, domainShown, _, aliasShown, _, descriptionShown, _, specShown, _,
      usageShown, _, stateShown, _, flagShown, _, storeShown, _, rotationShown, _, originShown, _,
      dateShown, same⟩
    subst same
    exact ⟨keyShown, domainShown, aliasShown, descriptionShown, specShown, usageShown, stateShown,
      flagShown, storeShown, rotationShown, originShown, dateShown, by simp⟩
  · intro ⟨keyShown, domainShown, aliasShown, descriptionShown, specShown, usageShown, stateShown,
      flagShown, storeShown, rotationShown, originShown, dateShown, _⟩
    exact ⟨_, keyShown, _, domainShown, _, aliasShown, _, descriptionShown, _, specShown, _,
      usageShown, _, stateShown, _, flagShown, _, storeShown, _, rotationShown, _, originShown, _,
      dateShown, rfl⟩

theorem Detail.whole_reader : Reader.Whole Detail.reader := by
  have optional := Reader.whole_text.optional
  refine Reader.whole_record Detail.fields_independent ?_
  simp only [Detail.fields, List.forall_mem_cons, List.not_mem_nil, false_implies, implies_true,
    and_true]
  exact ⟨Reader.whole_text.must _ _, Reader.whole_text.may _ _, optional.may _ _, optional.may _ _,
    Reader.whole_text.may _ _, optional.may _ _, Reader.whole_text.may _ _,
    Reader.whole_text.may _ _, Reader.whole_text.may _ _, optional.may _ _, optional.may _ _,
    optional.may _ _⟩

/-- An object that lacks the id of a key, gives a column twice, or gives it something of another
type. -/
inductive Detail.Flawed : Node → Prop where
  | unnamed {members : Members} {named : List (String × Node)} (lists : members.Lists named)
      (absent : held named "key_id" = []) : Detail.Flawed (.object members)
  | repeated {members : Members} {named : List (String × Node)} {column : Column}
      (lists : members.Lists named) (known : column ∈ Detail.columns)
      (twice : 2 ≤ (held named column.name).length) : Detail.Flawed (.object members)
  | mistyped {members : Members} {named : List (String × Node)} {column : Column} {value : Node}
      (lists : members.Lists named) (known : column ∈ Detail.columns)
      (given : value ∈ held named column.name) (other : ¬ column.presence.Admits value) :
      Detail.Flawed (.object members)

theorem Detail.Laid.showsIn {members : Members} {named : List (String × Node)}
    (laid : Detail.Laid (.object members) detail) (lists : members.Lists named) :
    ∀ column ∈ Detail.columns,
      column.presence.ShowsIn (column.get detail) (held named column.name) := by
  obtain ⟨values, presents, shows⟩ := laid
  cases presents with
  | object otherLists others =>
      rw [lists.unique otherLists]
      exact shows

theorem Detail.Flawed.not_laid (flawed : Detail.Flawed node) : ¬ Detail.Laid node detail := by
  intro laid
  cases flawed with
  | unnamed lists absent =>
      have shows := laid.showsIn lists ⟨"key_id", .required, fun detail => some detail.keyId⟩
        (List.mem_cons_self)
      exact shows.given absent
  | repeated lists known twice =>
      have once := (laid.showsIn lists _ known).length_le
      omega
  | mistyped lists known given other => exact other ((laid.showsIn lists _ known).admits _ given)

end KeyCustody.Key

namespace KeyCustody.Service

open Json (GivesEach Items Members Node Presents Reader held)

variable {node : Node} {details : List Key.Detail} {body : Bytes}

/-- The body is a text of a listing of exactly these keys, in this order. -/
def ListsKeys (body : Bytes) (details : List Key.Detail) : Prop :=
  ∃ node values, Node.IsText node body ∧ Presents ["key_details"] node values ∧
    GivesEach Key.Detail.Laid (values "key_details") details

theorem keyListingReader_eq_ok_iff : keyListingReader node = .ok details ↔
    ∃ values, Presents ["key_details"] node values ∧
      GivesEach Key.Detail.Laid (values "key_details") details := by
  rw [keyListingReader, Json.record_eq_ok_iff (List.pairwise_singleton _ _)]
  refine exists_congr fun values => and_congr_right fun _ => ?_
  have take {after : List Key.Detail} :
      (Json.Slot.may "key_details" (Reader.list Key.Detail.reader) fun value _ => value).take
          (values "key_details") [] = some after ↔
        ∃ found, GivesEach Key.Detail.Laid (values "key_details") found ∧ found = after :=
    Json.take_list_eq_some_iff (fun _ _ => Key.Detail.reader_eq_ok_iff) rfl
  simp only [Json.fillEach_cons, Json.fillEach_nil, Option.bind_eq_some_iff, Option.some.injEq,
    Json.name_may, take]
  simp

theorem whole_keyListingReader : Reader.Whole keyListingReader := by
  refine Reader.whole_record (List.pairwise_singleton _ _) ?_
  simp only [List.forall_mem_singleton]
  exact Key.Detail.whole_reader.list.may _ _

theorem run_keyListingReader_eq_ok_iff :
    keyListingReader.run body = .ok details ↔ ListsKeys body details := by
  rw [whole_keyListingReader.run_eq_ok_iff, ListsKeys]
  simp only [keyListingReader_eq_ok_iff, exists_and_left]

/-- A listing that shows each key by an object lists them, whatever else it holds. -/
theorem listsKeys_of_shown {shown : List Json} {members : List (String × Json)}
    (shows : List.Forall₂ Key.Detail.ShownAs details shown)
    (array : held members "key_details" = [.array shown])
    (text : (Json.object members).WrittenAs body) : ListsKeys body details := by
  obtain ⟨node, text, means⟩ := text
  obtain ⟨values, presents, given⟩ := means.presents ["key_details"]
  have arrayMeans := given "key_details"
  rw [array] at arrayMeans
  obtain ⟨value, only, means⟩ := Json.exists_of_means_one arrayMeans
  cases means with
  | array means =>
      obtain ⟨nodes, lists, all⟩ := means.lists
      refine ⟨node, values, text, presents, ?_⟩
      rw [only]
      exact .listed lists (Key.laid_of_shown shows all)

/-- The text of a listing in which some key cannot be read. -/
inductive FlawedListing : Bytes → Prop where
  | mk {members : Members} {named : List (String × Node)} {items : Items} {nodes : List Node}
      {node : Node} {body : Bytes} (text : Node.IsText (.object members) body)
      (lists : members.Lists named) (given : .array items ∈ held named "key_details")
      (itemsList : items.Lists nodes) (listed : node ∈ nodes) (flawed : Key.Detail.Flawed node) :
      FlawedListing body

theorem FlawedListing.not_listsKeys (flawed : FlawedListing body) : ¬ ListsKeys body details := by
  intro ⟨other, values, otherText, presents, gives⟩
  obtain ⟨text, lists, given, itemsList, listed, flawed⟩ := flawed
  obtain rfl := text.unique otherText
  cases presents with
  | object otherLists others =>
      obtain rfl := lists.unique otherLists
      generalize held _ "key_details" = values at given gives
      cases gives with
      | missing => cases given
      | listed otherItems laid =>
          cases List.mem_singleton.mp given
          obtain rfl := itemsList.unique otherItems
          have sound := laid.imp fun node detail laid =>
            And.intro (fun flawed => flawed.not_laid laid : ¬ Key.Detail.Flawed node) laid
          exact ((List.forall₂_and_left _ _).mp sound).1 _ listed flawed

end KeyCustody.Service

namespace KeyCustody.Cloud

open Json (held)
open Service (ListsKeys FlawedListing)

variable {σ : Type}

/-- The answer to a request for the keys that the server of the account gives. -/
theorem sample_lists_answered (answer : Http.Answer) :
    ∃ request, requestsOf ((answerCall (KeyService.sample "http://h:8080/") (.listKeys "ALL")).run
      (Scripted.world "h:8080") ⟨[answer], 0, 0⟩).exchanges = [⟨request, answer⟩] := by
  have address : Url.parse ("http://h:8080" ++
      KeyService.path (KeyService.sample "http://h:8080/") (KeyService.listKeys "ALL")) =
        .ok ⟨"http", some ⟨"", "h", some 8080⟩, "/v1.0/p1/kms/list-keys", none, none⟩ := by
    decide +kernel
  exact KeyService.sample_answers address (by decide +kernel) rfl answer

/-- Two keys, shown with their members in different orders. Neither has an alias. -/
def someKeys : List Key.Detail :=
  [{ keyId := "k1", spec := "AES_256", state := "2", defaultFlag := "0", keystoreId := "0" },
    { keyId := "k2", description := some "old" }]

def someKeysShown : List Json :=
  [.object [("key_state", .text "2"), ("key_spec", .text "AES_256"), ("grants", .array []),
      ("keystore_id", .text "0"), ("key_id", .text "k1"), ("key_alias", .null),
      ("default_key_flag", .text "0")],
    .object [("key_id", .text "k2"), ("key_description", .text "old")]]

theorem someKeys_shown : List.Forall₂ Key.Detail.ShownAs someKeys someKeysShown := by
  refine .cons ⟨_, rfl, ?_⟩ (.cons ⟨_, rfl, ?_⟩ .nil)
  all_goals
    simp only [Key.Detail.columns, List.forall_mem_cons, List.not_mem_nil, false_implies,
      implies_true, and_true]
    and_intros
  all_goals first | exact .text _ _ | exact .empty | exact .null | exact .missing

/-- An answer to a call for the keys is read as a list of keys exactly if it lists them, and is an
error otherwise. So one with objects that show the keys is read as these keys, and one in which a
key lacks its id, has a member twice, or has one of another type is an error. -/
theorem keys_listed_whole_or_refused (account : Account) (keySpec : String)
    (world : World Wire.Question Wire.Question.Reply σ) (state : σ) {request : Http.Request}
    {head : Http.Head} {body : Bytes} (accepted : head.status < 300)
    (answered : requestsOf ((answerCall account (.listKeys keySpec)).run world state).exchanges =
      [⟨request, .whole head body⟩]) :
    let reply := ((answerCall account (.listKeys keySpec)).run world state).value
    (∀ details, reply = .ok details ↔ ListsKeys body details) ∧
    ((¬ ∃ details, ListsKeys body details) → ∃ fault, reply = .error (.unreadable fault)) ∧
    (∀ details shown members, List.Forall₂ Key.Detail.ShownAs details shown →
      held members "key_details" = [.array shown] → (Json.object members).WrittenAs body →
      reply = .ok details) ∧
    (FlawedListing body → ∃ fault, reply = .error (.unreadable fault)) := by
  intro reply
  obtain ⟨whole, refused⟩ : KeyService.Told reply (ListsKeys body) :=
    KeyService.told_of_ask world state (fun _ => Service.run_keyListingReader_eq_ok_iff) accepted
      answered
  refine ⟨whole, refused, fun details shown members shows array text => ?_, fun flawed => ?_⟩
  · exact (whole details).mpr (Service.listsKeys_of_shown shows array text)
  · exact refused fun ⟨details, lists⟩ => flawed.not_listsKeys lists

theorem someKeys_listed :
    List.Forall₂ Key.Detail.ShownAs someKeys someKeysShown ∧
      ((answerCall (KeyService.sample "http://h:8080/") (.listKeys "ALL")).run
        (Scripted.world "h:8080") ⟨[.whole ⟨200, []⟩
          (Text.octets (Json.object [("key_details", .array someKeysShown)]).compact)], 0, 0⟩).value =
        .ok someKeys := by
  have text : (Json.object [("key_details", .array someKeysShown)]).WrittenAs _ :=
    Json.writtenAs_compact (by
      simp [someKeysShown, Json.ReadsBack, Json.itemsReadBack, Json.membersReadBack])
  obtain ⟨request, answered⟩ := sample_lists_answered (.whole ⟨200, []⟩
    (Text.octets (Json.object [("key_details", .array someKeysShown)]).compact))
  obtain ⟨-, -, shown, -⟩ := keys_listed_whole_or_refused (KeyService.sample "http://h:8080/") "ALL"
    (Scripted.world "h:8080") _ (by decide) answered
  exact ⟨someKeys_shown, shown someKeys someKeysShown _ someKeys_shown rfl text⟩

end KeyCustody.Cloud
