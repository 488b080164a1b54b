import KeyCustody.Proofs.Filter.Lookup
import KeyCustody.Proofs.TagPages

namespace KeyCustody.Inventory

/-! # Keys joined with their tags

The records of an inventory follow the listing of keys one for one. A record takes the tags of
its key out of the collection, so of the records for one key only the first has them. -/

open Key (Detail Record Tag)

/-- The tags collected for a key, or none where none were. -/
def TagMap.tagsOf (tags : TagMap) (id : String) : List Tag := (tags.find? id).getD []

theorem TagMap.find?_erase (tags : TagMap) (id other : String) :
    (tags.erase id).find? other = if other = id then none else tags.find? other := by
  obtain ⟨entries⟩ := tags
  rw [erase, find?, find?]
  induction entries with
  | nil => simp
  | cons entry rest induction =>
      obtain ⟨key, value⟩ := entry
      by_cases erased : key = id
      · subst erased
        rw [List.filter_cons_of_neg (by simp), induction]
        by_cases same : other = key
        · rw [if_pos same, if_pos same]
        · rw [if_neg same, if_neg same, List.lookup_cons, beq_eq_false_iff_ne.mpr same]
      · rw [List.filter_cons_of_pos (by simpa using erased), List.lookup_cons, List.lookup_cons,
          induction]
        by_cases found : other = key
        · subst found
          simp [erased]
        · rw [beq_eq_false_iff_ne.mpr found]

/-- What is left of the tags of a key after the keys ahead of it took theirs. -/
def tagsLeft (tags : TagMap) (ahead : List Detail) (id : String) : List Tag :=
  if id ∈ ahead.map Detail.keyId then [] else tags.tagsOf id

theorem tagsLeft_erase (tags : TagMap) (first : Detail) (ahead : List Detail) (id : String) :
    tagsLeft (tags.erase first.keyId) ahead id = tagsLeft tags (first :: ahead) id := by
  simp only [tagsLeft, TagMap.tagsOf, TagMap.find?_erase, List.map_cons, List.mem_cons]
  by_cases later : id ∈ ahead.map Detail.keyId
  · rw [if_pos later, if_pos (Or.inr later)]
  · by_cases same : id = first.keyId
    · rw [if_neg later, if_pos same, if_pos (Or.inl same), Option.getD_none]
    · rw [if_neg later, if_neg same, if_neg (not_or.mpr ⟨same, later⟩)]

theorem getElem?_merge (tags : TagMap) (details : List Detail) (index : Nat) :
    (merge tags details)[index]? = details[index]?.map fun detail =>
      Record.ofDetail detail (tagsLeft tags (details.take index) detail.keyId) := by
  -- Each record erases the tags it takes, so the collection varies in the induction.
  induction details generalizing tags index with
  | nil => rfl
  | cons first rest induction =>
      cases index with
      | zero => rfl
      | succ index =>
          rw [merge, List.getElem?_cons_succ, induction, List.getElem?_cons_succ,
            List.take_succ_cons]
          simp only [tagsLeft_erase]

theorem length_merge (tags : TagMap) (details : List Detail) :
    (merge tags details).length = details.length := by
  rw [← List.length_map Record.keyId, map_keyId_merge, List.length_map]

/-- The record has every attribute that the key is listed with, its state by the same code, and
its id in both places where a record is written with one. -/
structure Describes (record : Record) (detail : Detail) : Prop where
  keyId : record.keyId = detail.keyId
  written : ∀ place ∈ ["id", "key_id"], record.json.get? place = some (.text detail.keyId)
  spec : record.spec = detail.spec
  state : record.state.code = detail.state
  defaultFlag : record.defaultFlag = detail.defaultFlag
  keystoreId : record.keystoreId = detail.keystoreId
  rotationEnabled : record.rotationEnabled = detail.rotationEnabled
  domainId : record.domainId = detail.domainId
  aliasName : record.aliasName = detail.aliasName
  description : record.description = detail.description
  usage : record.usage = detail.usage
  origin : record.origin = detail.origin
  creationDate : record.creationDate = detail.creationDate

theorem describes_ofDetail (detail : Detail) (tags : List Tag) :
    Describes (Record.ofDetail detail tags) detail where
  keyId := rfl
  written place named := by
    refine Filter.get?_record_eq_some_iff.mpr (.inl ⟨detail.keyId, ?_, rfl⟩)
    rcases List.mem_pair.mp named with rfl | rfl <;> simp [Filter.attributes]
  spec := rfl
  state := Key.State.code_ofCode detail.state
  defaultFlag := rfl
  keystoreId := rfl
  rotationEnabled := rfl
  domainId := rfl
  aliasName := rfl
  description := rfl
  usage := rfl
  origin := rfl
  creationDate := rfl

/-- There is one record for each key, in the order of the keys, and it has the tags that are
meant for a key at its place. -/
structure Joins (meant : Nat → Detail → List Tag) (details : List Detail)
    (records : List Record) : Prop where
  length : records.length = details.length
  each : ∀ index detail, details[index]? = some detail → ∃ record,
    records[index]? = some record ∧ Describes record detail ∧ record.tags = meant index detail

theorem joins_merge (tags : TagMap) (details : List Detail) :
    Joins (fun index detail => tagsLeft tags (details.take index) detail.keyId) details
      (merge tags details) where
  length := length_merge tags details
  each index detail listed := by
    have found := getElem?_merge tags details index
    rw [listed, Option.map_some] at found
    exact ⟨_, found, describes_ofDetail detail _, rfl⟩

theorem Joins.congr_iff {meant other : Nat → Detail → List Tag} {details : List Detail}
    {records : List Record} (joins : Joins meant details records) :
    Joins other details records ↔ ∀ index detail, details[index]? = some detail →
      meant index detail = other index detail := by
  constructor
  · intro also index detail listed
    obtain ⟨record, found, -, tags⟩ := joins.each index detail listed
    obtain ⟨again, same, -, others⟩ := also.each index detail listed
    cases found.symm.trans same
    rw [← tags, others]
  · intro agree
    refine ⟨joins.length, fun index detail listed => ?_⟩
    obtain ⟨record, found, describes, tags⟩ := joins.each index detail listed
    exact ⟨record, found, describes, tags.trans (agree index detail listed)⟩

/-- Every record has the tags that were collected for its key. -/
def JoinsAll (tags : TagMap) : List Detail → List Record → Prop :=
  Joins fun _ detail => tags.tagsOf detail.keyId

/-- No tags were collected for a key that is listed again. -/
def RepeatsBare (tags : TagMap) (details : List Detail) : Prop :=
  ∀ index detail, details[index]? = some detail →
    detail.keyId ∈ (details.take index).map Detail.keyId → tags.tagsOf detail.keyId = []

theorem tagsLeft_eq_tagsOf_iff (tags : TagMap) (ahead : List Detail) (id : String) :
    tagsLeft tags ahead id = tags.tagsOf id ↔
      (id ∈ ahead.map Detail.keyId → tags.tagsOf id = []) := by
  rw [tagsLeft]
  split
  · rename_i listed
    simp only [listed, true_imp_iff]
    exact eq_comm
  · rename_i new
    simp only [new, false_imp_iff]

theorem joinsAll_merge_iff (tags : TagMap) (details : List Detail) :
    JoinsAll tags details (merge tags details) ↔ RepeatsBare tags details := by
  rw [JoinsAll, (joins_merge tags details).congr_iff, RepeatsBare]
  simp only [tagsLeft_eq_tagsOf_iff]

theorem repeatsBare_of_distinct (tags : TagMap) {details : List Detail}
    (distinct : (details.map Detail.keyId).Nodup) : RepeatsBare tags details := by
  intro index detail listed again
  obtain ⟨bound, rfl⟩ := List.getElem?_eq_some_iff.mp listed
  rw [← List.take_append_drop index details, List.map_append, List.nodup_append] at distinct
  have here : details[index].keyId ∈ (details.drop index).map Detail.keyId :=
    List.mem_map_of_mem (List.mem_drop_iff_getElem.mpr ⟨0, by omega, rfl⟩)
  exact absurd rfl (distinct.2.2 _ again _ here)

/-- Whatever the provider answers, the keys are listed once after the pages of tags, and a
listing of them gives one record for each key, in the order of the keys. A record has the tags
that were collected for its key unless an earlier record took them. So all records have their
tags exactly if no key with tags is listed again, as where no key is. -/
theorem tags_taken_by_first_record (world : World Question Question.Reply σ) (state : σ) :
    let collected := collectTags.run world state
    let ran := listKeys.attempt.run world state
    ∃ answer : Except Error (List Detail),
      ran.calls = collected.calls ++ [⟨.listKeys everySpec, answer⟩] ∧
      match answer with
      | .error cause => ran.value = .error cause
      | .ok details =>
          ∃ records, ran.value = .ok records ∧
            Joins (fun index detail =>
              tagsLeft collected.value (details.take index) detail.keyId) details records ∧
            (JoinsAll collected.value details records ↔ RepeatsBare collected.value details) ∧
            ((details.map Detail.keyId).Nodup → JoinsAll collected.value details records) := by
  intro collected ran
  obtain ⟨later, calls, answer, rfl, value⟩ :=
    Errand.exists_later_calls joinKeys_ensures world state
  refine ⟨answer, calls, ?_⟩
  cases answer with
  | error cause => exact value
  | ok details =>
      have exact_iff := joinsAll_merge_iff collected.value details
      exact ⟨_, value, joins_merge _ _, exact_iff, fun distinct =>
        exact_iff.mpr (repeatsBare_of_distinct _ distinct)⟩

/-- A provider that gives the same tagged keys on every page, lists these keys, and grants
everything else. -/
def catalog (tagged : List Service.TaggedKey) (details : List Detail) :
    (asked : Service.Call) → Except Error asked.Reply
  | .tagPage _ => .ok ⟨tagged, some tagged.length⟩
  | .listKeys _ => .ok details
  | asked => Service.Scripted.reply 0 none asked

/-- A key that is listed twice has its tags in the first record, and none in the second. -/
theorem repeated_key_without_tags :
    let details : List Detail := [{ keyId := "k1" }, { keyId := "k1" }]
    let world := steadyWorld (catalog [⟨"k1", [⟨"env", "prod"⟩]⟩] details)
    let collected := collectTags.run world ()
    ∃ records, (listKeys.attempt.run world ()).value = .ok records ∧
      collected.value.tagsOf "k1" = [⟨"env", "prod"⟩] ∧
      records.map Record.tags = [[⟨"env", "prod"⟩], []] ∧
      ¬ JoinsAll collected.value details records := by
  intro details world collected
  refine ⟨merge collected.value details, rfl, rfl, rfl, fun joins => ?_⟩
  have bare := (joinsAll_merge_iff _ _).mp joins 1 { keyId := "k1" } rfl (by decide)
  exact absurd bare (by decide)

end KeyCustody.Inventory
