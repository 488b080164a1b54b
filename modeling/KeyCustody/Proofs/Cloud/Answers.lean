import KeyCustody.Proofs.Cloud.Requests
import KeyCustody.Proofs.Json.Shapes

namespace KeyCustody.Service

/-! # What answers say

The answers to a switched key, to a created key and to a page of tags. Each is read as what its
members give, in any order and beside any others, and a body that does not give it is not read. A
text or a list that is empty may be left out. -/

open Json (GivesEach GivesPair MayHold Node Presence Presents Reader Slot)

variable {node : Node} {body : Bytes} {status : KeyStatus} {created : CreatedKey} {tag : Key.Tag}
  {key : TaggedKey} {page : TagPage}

/-- A tree that gives the id and the state of a key. -/
def KeyStatus.Laid (node : Node) (status : KeyStatus) : Prop :=
  GivesPair "key_id" "key_state" node status.keyId status.state

/-- A status in its place. One that is left out is empty. -/
inductive KeyStatus.Given : List Node → KeyStatus → Prop where
  | missing : KeyStatus.Given [] ⟨"", ""⟩
  | given {node : Node} {status : KeyStatus} (laid : KeyStatus.Laid node status) :
      KeyStatus.Given [node] status

/-- The body is a text that tells the status of a switched key. -/
def TellsStatus (body : Bytes) (status : KeyStatus) : Prop :=
  ∃ node values, Node.IsText node body ∧ Presents ["key_info"] node values ∧
    KeyStatus.Given (values "key_info") status

theorem KeyStatus.fields_independent : KeyStatus.fields.Pairwise Slot.Independent :=
  List.pairwise_pair.mpr <|
    Json.independent_of_puts (by decide) (fun _ _ => rfl) (fun _ _ => rfl) fun _ _ _ => rfl

theorem KeyStatus.read_eq_ok_iff :
    Reader.record KeyStatus.fields ⟨"", ""⟩ node = .ok status ↔ KeyStatus.Laid node status := by
  refine (Json.record_pair_eq_ok_iff KeyStatus.fields_independent fun _ => rfl).trans ?_
  obtain ⟨keyId, state⟩ := status
  simp [KeyStatus.Laid]

theorem keyStatusReader_eq_ok_iff : keyStatusReader node = .ok status ↔
    ∃ values, Presents ["key_info"] node values ∧ KeyStatus.Given (values "key_info") status := by
  rw [keyStatusReader, Json.record_eq_ok_iff (List.pairwise_singleton _ _)]
  refine exists_congr fun values => and_congr_right fun _ => ?_
  simp only [Json.fillEach_cons, Json.fillEach_nil, Option.bind_eq_some_iff, Option.some.injEq,
    Json.take_may_eq_some_iff, KeyStatus.read_eq_ok_iff, Json.name_may]
  constructor
  · intro ⟨_, taken, same⟩
    subst same
    obtain ⟨absent, blank⟩ | ⟨node, found, only, laid, same⟩ := taken
    · rw [absent, ← blank]
      exact .missing
    · rw [only, ← same]
      exact .given laid
  · intro gives
    generalize values "key_info" = found at gives ⊢
    cases gives with
    | missing => exact ⟨_, .inl ⟨rfl, rfl⟩, rfl⟩
    | given laid => exact ⟨_, .inr ⟨_, _, rfl, laid, rfl⟩, rfl⟩

theorem whole_keyStatusReader : Reader.Whole keyStatusReader := by
  refine Reader.whole_record (List.pairwise_singleton _ _) ?_
  rw [List.forall_mem_singleton]
  have info : Reader.Whole (Reader.record KeyStatus.fields ⟨"", ""⟩) :=
    Json.whole_record_pair KeyStatus.fields_independent
  exact info.may _ _

theorem run_keyStatusReader_eq_ok_iff :
    keyStatusReader.run body = .ok status ↔ TellsStatus body status := by
  simp only [whole_keyStatusReader.run_eq_ok_iff, keyStatusReader_eq_ok_iff, TellsStatus,
    exists_and_left]

/-- A tree that gives the id and the domain of a key. -/
def CreatedKey.Laid (node : Node) (created : CreatedKey) : Prop :=
  GivesPair "key_id" "domain_id" node created.keyId created.domainId

/-- The body is a text that tells of a created key. It cannot leave the key out. -/
def TellsCreated (body : Bytes) (created : CreatedKey) : Prop :=
  ∃ node values info, Node.IsText node body ∧ Presents ["key_info"] node values ∧
    values "key_info" = [info] ∧ CreatedKey.Laid info created

theorem CreatedKey.fields_independent : CreatedKey.fields.Pairwise Slot.Independent :=
  List.pairwise_pair.mpr <|
    Json.independent_of_puts (by decide) (fun _ _ => rfl) (fun _ _ => rfl) fun _ _ _ => rfl

theorem CreatedKey.read_eq_ok_iff :
    Reader.record CreatedKey.fields ⟨"", ""⟩ node = .ok created ↔
      CreatedKey.Laid node created := by
  refine (Json.record_pair_eq_ok_iff CreatedKey.fields_independent fun _ => rfl).trans ?_
  obtain ⟨keyId, domainId⟩ := created
  simp [CreatedKey.Laid]

theorem createdKeyReader_eq_ok_iff : createdKeyReader node = .ok created ↔
    ∃ values info, Presents ["key_info"] node values ∧ values "key_info" = [info] ∧
      CreatedKey.Laid info created := by
  rw [createdKeyReader, Json.record_eq_ok_iff (List.pairwise_singleton _ _)]
  refine exists_congr fun values => ?_
  simp only [Json.fillEach_cons, Json.fillEach_nil, Option.bind_eq_some_iff, Option.some.injEq,
    Json.take_must_eq_some_iff, CreatedKey.read_eq_ok_iff, Json.name_must]
  simp

theorem whole_createdKeyReader : Reader.Whole createdKeyReader := by
  refine Reader.whole_record (List.pairwise_singleton _ _) ?_
  rw [List.forall_mem_singleton]
  have info : Reader.Whole (Reader.record CreatedKey.fields ⟨"", ""⟩) :=
    Json.whole_record_pair CreatedKey.fields_independent
  exact info.must _ _

theorem run_createdKeyReader_eq_ok_iff :
    createdKeyReader.run body = .ok created ↔ TellsCreated body created := by
  simp only [whole_createdKeyReader.run_eq_ok_iff, createdKeyReader_eq_ok_iff, TellsCreated,
    exists_and_left]

def TagLaid (node : Node) (tag : Key.Tag) : Prop := GivesPair "key" "value" node tag.key tag.value

/-- A tree that gives the id of a key and its tags. -/
def TaggedKey.Laid (node : Node) (key : TaggedKey) : Prop :=
  ∃ values, Presents ["resource_id", "tags"] node values ∧
    Presence.required.ShowsIn (some key.id) (values "resource_id") ∧
    GivesEach TagLaid (values "tags") key.tags

def Counts (node : Node) (count : Nat) : Prop := Node.Means node (.number (.integer count))

/-- A tree that gives the keys of a page, and may give their total count. -/
def TagPage.Laid (node : Node) (page : TagPage) : Prop :=
  ∃ values, Presents ["resources", "total_count"] node values ∧
    GivesEach TaggedKey.Laid (values "resources") page.keys ∧
    MayHold Counts (values "total_count") page.totalCount

/-- The body is a text that tells of a page of tags. -/
def TellsPage (body : Bytes) (page : TagPage) : Prop :=
  ∃ node, Node.IsText node body ∧ TagPage.Laid node page

theorem tagFields_independent : Key.Tag.fields.Pairwise Slot.Independent :=
  List.pairwise_pair.mpr <|
    Json.independent_of_puts (by decide) (fun _ _ => rfl) (fun _ _ => rfl) fun _ _ _ => rfl

theorem tagReader_eq_ok_iff : Key.Tag.reader node = .ok tag ↔ TagLaid node tag := by
  refine (Json.record_pair_eq_ok_iff tagFields_independent fun _ => rfl).trans ?_
  obtain ⟨key, value⟩ := tag
  simp [TagLaid]

theorem TaggedKey.fields_independent : TaggedKey.fields.Pairwise Slot.Independent :=
  List.pairwise_pair.mpr <|
    Json.independent_of_puts (by decide) (fun _ _ => rfl) (fun _ _ => rfl) fun _ _ _ => rfl

theorem TaggedKey.read_eq_ok_iff :
    Reader.record TaggedKey.fields ⟨"", []⟩ node = .ok key ↔ TaggedKey.Laid node key := by
  rw [Json.record_eq_ok_iff TaggedKey.fields_independent]
  refine exists_congr fun values => and_congr_right fun _ => ?_
  constructor
  · intro filled
    obtain ⟨_, first, filled⟩ := Option.bind_eq_some_iff.mp filled
    obtain ⟨_, second, ⟨⟩⟩ := Option.bind_eq_some_iff.mp filled
    obtain ⟨id, shows, rfl⟩ := Json.take_required_eq_some_iff.mp first
    obtain ⟨tags, gives, rfl⟩ :=
      (Json.take_list_eq_some_iff (fun _ _ => tagReader_eq_ok_iff) rfl).mp second
    exact ⟨shows, gives⟩
  · intro ⟨shows, gives⟩
    refine Option.bind_eq_some_iff.mpr
      ⟨_, Json.take_required_eq_some_iff.mpr ⟨_, shows, rfl⟩, ?_⟩
    exact Option.bind_eq_some_iff.mpr ⟨_,
      (Json.take_list_eq_some_iff (fun _ _ => tagReader_eq_ok_iff) rfl).mpr ⟨_, gives, rfl⟩, rfl⟩

theorem TagPage.fields_independent : TagPage.fields.Pairwise Slot.Independent :=
  List.pairwise_pair.mpr <|
    Json.independent_of_puts (by decide) (fun _ _ => rfl) (fun _ _ => rfl) fun _ _ _ => rfl

theorem TagPage.reader_eq_ok_iff : TagPage.reader node = .ok page ↔ TagPage.Laid node page := by
  rw [TagPage.reader, Json.record_eq_ok_iff TagPage.fields_independent]
  refine exists_congr fun values => and_congr_right fun _ => ?_
  have takeCount {keys : List TaggedKey} {after : TagPage} :
      (Slot.may "total_count" (Reader.optional Reader.natural)
        fun value page => { page with totalCount := value }).take (values "total_count")
          ⟨keys, none⟩ = some after ↔
        ∃ count, MayHold Counts (values "total_count") count ∧ ⟨keys, count⟩ = after :=
    Json.take_may_optional_eq_some_iff (fun _ _ => Json.natural_eq_ok_iff) (fun _ => nofun) rfl
  constructor
  · intro filled
    obtain ⟨_, first, filled⟩ := Option.bind_eq_some_iff.mp filled
    obtain ⟨_, second, ⟨⟩⟩ := Option.bind_eq_some_iff.mp filled
    obtain ⟨keys, gives, rfl⟩ :=
      (Json.take_list_eq_some_iff (fun _ _ => TaggedKey.read_eq_ok_iff) rfl).mp first
    obtain ⟨count, holds, rfl⟩ := takeCount.mp second
    exact ⟨gives, holds⟩
  · intro ⟨gives, holds⟩
    refine Option.bind_eq_some_iff.mpr ⟨_,
      (Json.take_list_eq_some_iff (fun _ _ => TaggedKey.read_eq_ok_iff) rfl).mpr ⟨_, gives, rfl⟩, ?_⟩
    exact Option.bind_eq_some_iff.mpr ⟨_, takeCount.mpr ⟨_, holds, rfl⟩, rfl⟩

theorem TagPage.whole_reader : Reader.Whole TagPage.reader := by
  have tag : Reader.Whole Key.Tag.reader := Json.whole_record_pair tagFields_independent
  have key : Reader.Whole (Reader.record TaggedKey.fields ⟨"", []⟩) := by
    refine Reader.whole_record TaggedKey.fields_independent ?_
    simp only [TaggedKey.fields, List.forall_mem_cons, List.not_mem_nil, false_implies,
      implies_true, and_true]
    exact ⟨Reader.whole_text.must _ _, tag.list.may _ _⟩
  refine Reader.whole_record TagPage.fields_independent ?_
  simp only [TagPage.fields, List.forall_mem_cons, List.not_mem_nil, false_implies, implies_true,
    and_true]
  exact ⟨key.list.may _ _, Reader.whole_natural.optional.may _ _⟩

theorem TagPage.run_eq_ok_iff : TagPage.reader.run body = .ok page ↔ TellsPage body page := by
  rw [TagPage.whole_reader.run_eq_ok_iff]
  exact exists_congr fun node => and_congr_right fun _ => TagPage.reader_eq_ok_iff

end KeyCustody.Service

namespace KeyCustody.Cloud

open KeyService (Told)

variable {σ : Type} {account : Account} {request : Http.Request} {head : Http.Head} {body : Bytes}

/-- A page of tags is what the answer to the call for it tells. -/
theorem tagPage_told (query : Service.TagQuery)
    (world : World Wire.Question Wire.Question.Reply σ) (state : σ) (accepted : head.status < 300)
    (answered : requestsOf ((answerCall account (.tagPage query)).run world state).exchanges =
      [⟨request, .whole head body⟩]) :
    Told ((answerCall account (.tagPage query)).run world state).value (Service.TellsPage body) :=
  KeyService.told_of_ask world state (fun _ => Service.TagPage.run_eq_ok_iff) accepted answered

/-- The status of a switched key is what the answer to the call tells. -/
theorem setKey_told (switch : Service.Switch) (keyId token : String)
    (world : World Wire.Question Wire.Question.Reply σ) (state : σ) (accepted : head.status < 300)
    (answered :
      requestsOf ((answerCall account (.setKey switch keyId token)).run world state).exchanges =
        [⟨request, .whole head body⟩]) :
    Told ((answerCall account (.setKey switch keyId token)).run world state).value
      (Service.TellsStatus body) :=
  KeyService.told_of_ask world state (fun _ => Service.run_keyStatusReader_eq_ok_iff) accepted
    answered

/-- A created key is what the answer to the call tells. -/
theorem createKey_told (name : String)
    (world : World Wire.Question Wire.Question.Reply σ) (state : σ) (accepted : head.status < 300)
    (answered : requestsOf ((answerCall account (.createKey name)).run world state).exchanges =
      [⟨request, .whole head body⟩]) :
    Told ((answerCall account (.createKey name)).run world state).value
      (Service.TellsCreated body) :=
  KeyService.told_of_ask world state (fun _ => Service.run_createdKeyReader_eq_ok_iff) accepted
    answered

end KeyCustody.Cloud
