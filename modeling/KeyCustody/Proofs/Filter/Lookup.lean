import KeyCustody.Filter.Basic
import KeyCustody.Proofs.Text.Fields
import KeyCustody.Proofs.Text.Numeral
import Mathlib.Data.List.Nodup

namespace KeyCustody.Filter

/-! # What a path finds in a record

A path finds an attribute by its name, the tags as a whole or one of them by its position, and
the value of a tag by the key of that tag. Every other path finds nothing. -/

open Key (Detail Tag Record)

variable {detail : Detail} {tags : List Tag}

/-- The attributes of a key by name, and what the provider gives for them. -/
def attributes (detail : Detail) : List (String × Option String) :=
  [("id", some detail.keyId), ("key_id", some detail.keyId), ("key_spec", some detail.spec),
    ("key_state", some detail.state), ("default_key_flag", some detail.defaultFlag),
    ("keystore_id", some detail.keystoreId), ("key_rotation_enabled", detail.rotationEnabled),
    ("domain_id", some detail.domainId), ("key_alias", detail.aliasName),
    ("key_description", detail.description), ("key_usage", detail.usage),
    ("origin", detail.origin), ("creation_date", detail.creationDate)]

/-- The texts that paths find in the record of a key with its tags. -/
inductive Finds (detail : Detail) (tags : List Tag) : (path text : String) → Prop where
  | given (name value : String) (stands : (name, some value) ∈ attributes detail) :
      Finds detail tags name value
  | tagged (key : String) (tag : Tag)
      (first : (tags.find? fun tag => tag.key == key) = some tag) :
      Finds detail tags ("tag:" ++ key) tag.value
  | tags : Finds detail tags "tags" (Json.array (tags.map Tag.json)).compact
  | tagAt (step : String) (index : Nat) (tag : Tag) (reads : Text.Numeral step.toList index)
      (stands : tags[index]? = some tag) :
      Finds detail tags ("tags." ++ step) tag.json.compact
  | tagKeyAt (step : String) (index : Nat) (tag : Tag) (reads : Text.Numeral step.toList index)
      (stands : tags[index]? = some tag) :
      Finds detail tags ("tags." ++ step ++ ".key") tag.key
  | tagValueAt (step : String) (index : Nat) (tag : Tag)
      (reads : Text.Numeral step.toList index) (stands : tags[index]? = some tag) :
      Finds detail tags ("tags." ++ step ++ ".value") tag.value

theorem lookup_eq_some_iff_mem {β : Type} {name : String} {value : β}
    {members : List (String × β)} (distinct : (members.map Prod.fst).Nodup) :
    members.lookup name = some value ↔ (name, value) ∈ members := by
  rw [List.lookup_eq_some_iff]
  constructor
  · rintro ⟨before, after, rfl, -⟩
    exact List.mem_append_right _ List.mem_cons_self
  · intro member
    obtain ⟨before, after, rfl⟩ := List.append_of_mem member
    refine ⟨before, after, rfl, fun other stands => bne_iff_ne.mpr fun same => ?_⟩
    rw [List.map_append, List.map_cons, List.nodup_append] at distinct
    exact distinct.2.2 other.1 (List.mem_map_of_mem stands) name List.mem_cons_self same.symm

def membersOf (listed : List (String × Option String)) : List (String × Json) :=
  listed.flatMap fun entry => Key.memberOf entry.1 entry.2

theorem mem_membersOf {name : String} {node : Json} {listed : List (String × Option String)} :
    (name, node) ∈ membersOf listed ↔ ∃ value, (name, some value) ∈ listed ∧ node = .text value := by
  rw [membersOf, List.mem_flatMap]
  constructor
  · rintro ⟨⟨other, value⟩, stands, member⟩
    cases value with
    | none => cases member
    | some value =>
        cases List.mem_singleton.mp member
        exact ⟨value, stands, rfl⟩
  · rintro ⟨value, stands, rfl⟩
    exact ⟨(name, some value), stands, List.mem_cons_self⟩

theorem names_membersOf (listed : List (String × Option String)) :
    List.Sublist ((membersOf listed).map Prod.fst) (listed.map Prod.fst) := by
  induction listed with
  | nil => exact List.Sublist.refl _
  | cons entry rest induction =>
      obtain ⟨name, value⟩ := entry
      cases value with
      | none => exact induction.cons name
      | some value => exact induction.cons_cons name

theorem json_record (detail : Detail) (tags : List Tag) :
    (Record.ofDetail detail tags).json =
      .object (membersOf (attributes detail) ++ [("tags", .array (tags.map Tag.json))]) := by
  simp only [Record.json, Record.ofDetail, Key.State.code_ofCode, membersOf, attributes,
    List.flatMap_cons, List.flatMap_nil, List.append_assoc, Key.memberOf, List.cons_append,
    List.nil_append]

theorem get?_record_eq_some_iff {name : String} {node : Json} :
    (Record.ofDetail detail tags).json.get? name = some node ↔
      (∃ value, (name, some value) ∈ attributes detail ∧ node = .text value) ∨
        name = "tags" ∧ node = .array (tags.map Tag.json) := by
  have all : (((attributes detail).map Prod.fst) ++ ["tags"]).Nodup := by
    change ["id", "key_id", "key_spec", "key_state", "default_key_flag", "keystore_id",
      "key_rotation_enabled", "domain_id", "key_alias", "key_description", "key_usage",
      "origin", "creation_date", "tags"].Nodup
    decide
  have distinct : ((membersOf (attributes detail) ++
      [("tags", Json.array (tags.map Tag.json))]).map Prod.fst).Nodup := by
    rw [List.map_append]
    exact all.sublist ((names_membersOf _).append (List.Sublist.refl _))
  rw [json_record, Json.get?, lookup_eq_some_iff_mem distinct, List.mem_append, mem_membersOf,
    List.mem_singleton, Prod.mk.injEq]

theorem get?_tag_eq_some_iff {tag : Tag} {name : String} {node : Json} :
    tag.json.get? name = some node ↔
      name = "key" ∧ node = .text tag.key ∨ name = "value" ∧ node = .text tag.value := by
  have distinct : ([("key", Json.text tag.key), ("value", Json.text tag.value)].map
      Prod.fst).Nodup := by simp
  rw [Tag.json, Json.get?, lookup_eq_some_iff_mem distinct]
  simp

theorem descend_tags_eq_some_iff {step : List Char} {node : Json} :
    descend (.array (tags.map Tag.json)) step = some node ↔
      ∃ index tag, Text.Numeral step index ∧ tags[index]? = some tag ∧ node = tag.json := by
  simp only [descend, Option.bind_eq_some_iff, Text.natural?_eq_some_iff, List.getElem?_map,
    Option.map_eq_some_iff]
  constructor
  · rintro ⟨index, reads, tag, stands, rfl⟩
    exact ⟨index, tag, reads, stands, rfl⟩
  · rintro ⟨index, tag, reads, stands, rfl⟩
    exact ⟨index, reads, tag, stands, rfl⟩

/-- No step leads on from a text. -/
theorem foldlM_descend_text {value : String} {steps : List (List Char)} {node : Json}
    (followed : steps.foldlM descend (.text value) = some node) :
    steps = [] ∧ node = .text value := by
  cases steps with
  | nil =>
      cases followed
      exact ⟨rfl, rfl⟩
  | cons step later => cases followed

theorem foldlM_descend_cons {node found : Json} {step : List Char} {later : List (List Char)} :
    (step :: later).foldlM descend node = some found ↔
      ∃ next, descend node step = some next ∧ later.foldlM descend next = some found := by
  rw [List.foldlM_cons, Option.bind_eq_bind, Option.bind_eq_some_iff]

/-- The path of some steps. -/
def pathOf (steps : List (List Char)) : String := String.ofList (['.'].intercalate steps)

theorem pathOf_singleton (name : String) : pathOf [name.toList] = name := by
  rw [pathOf, List.intercalate_singleton, String.ofList_toList]

theorem pathOf_tagAt (step : String) : pathOf ["tags".toList, step.toList] = "tags." ++ step := by
  apply String.toList_injective
  simp [pathOf]

theorem pathOf_tagMemberAt (step member : String) :
    pathOf ["tags".toList, step.toList, member.toList] =
      "tags." ++ step ++ ("." ++ member) := by
  apply String.toList_injective
  simp [pathOf]

theorem eq_toList_of_ofList_eq {step : List Char} {name : String}
    (same : String.ofList step = name) : step = name.toList := by
  rw [← same, String.toList_ofList]

theorem finds_of_followed_tags {steps : List (List Char)} {node : Json} {text : String}
    (followed : steps.foldlM descend (.array (tags.map Tag.json)) = some node)
    (reads : textOf node = some text) :
    Finds detail tags (pathOf ("tags".toList :: steps)) text := by
  cases steps with
  | nil =>
      cases followed
      cases reads
      rw [pathOf_singleton]
      exact .tags
  | cons step later =>
      obtain ⟨item, found, followed⟩ := foldlM_descend_cons.mp followed
      obtain ⟨index, tag, numeral, stands, rfl⟩ := descend_tags_eq_some_iff.mp found
      rw [← String.toList_ofList (l := step)] at numeral ⊢
      generalize String.ofList step = step at numeral
      cases later with
      | nil =>
          cases followed
          cases reads
          rw [pathOf_tagAt]
          exact .tagAt step index tag numeral stands
      | cons member later =>
          obtain ⟨part, found, followed⟩ := foldlM_descend_cons.mp followed
          rcases get?_tag_eq_some_iff.mp found with ⟨isKey, rfl⟩ | ⟨isValue, rfl⟩
          · obtain ⟨rfl, rfl⟩ := foldlM_descend_text followed
            cases reads
            rw [eq_toList_of_ofList_eq isKey, pathOf_tagMemberAt]
            exact .tagKeyAt step index tag numeral stands
          · obtain ⟨rfl, rfl⟩ := foldlM_descend_text followed
            cases reads
            rw [eq_toList_of_ofList_eq isValue, pathOf_tagMemberAt]
            exact .tagValueAt step index tag numeral stands

theorem finds_of_followed {steps : List (List Char)} {node : Json} {text : String}
    (nonempty : steps ≠ [])
    (followed : steps.foldlM descend (Record.ofDetail detail tags).json = some node)
    (reads : textOf node = some text) : Finds detail tags (pathOf steps) text := by
  obtain ⟨name, later, rfl⟩ := List.exists_cons_of_ne_nil nonempty
  obtain ⟨first, found, followed⟩ := foldlM_descend_cons.mp followed
  rcases get?_record_eq_some_iff.mp found with ⟨value, given, rfl⟩ | ⟨isTags, rfl⟩
  · obtain ⟨rfl, rfl⟩ := foldlM_descend_text followed
    cases reads
    rw [pathOf, List.intercalate_singleton]
    exact .given _ _ given
  · rw [eq_toList_of_ofList_eq isTags]
    exact finds_of_followed_tags followed reads

theorem fields_pathOf {steps : List (List Char)} (nonempty : steps ≠ [])
    (noDot : ∀ step ∈ steps, '.' ∉ step) : Text.fields '.' (pathOf steps).toList = steps := by
  rw [Text.fields_eq_splitOn, pathOf, String.toList_ofList, List.splitOn_intercalate _ noDot nonempty]

theorem find_of_unmarked {document : Json} {path : String}
    (unmarked : tagMark.isPrefixOf? path.toList = none) :
    find document path =
      ((Text.fields '.' path.toList).foldlM descend document).bind textOf := by
  rw [find, extract, unmarked, followPath]

theorem find_pathOf {document node : Json} {steps : List (List Char)} {text : String}
    (unmarked : tagMark.isPrefixOf? (pathOf steps).toList = none) (nonempty : steps ≠ [])
    (noDot : ∀ step ∈ steps, '.' ∉ step) (followed : steps.foldlM descend document = some node)
    (reads : textOf node = some text) : find document (pathOf steps) = some text := by
  rw [find_of_unmarked unmarked, fields_pathOf nonempty noDot, followed, Option.bind_some, reads]

theorem tagValue_record (detail : Detail) (tags : List Tag) (key : String) :
    tagValue (Record.ofDetail detail tags).json key =
      (tags.find? fun tag => tag.key == key).map fun tag => .text tag.value := by
  have listed : (Record.ofDetail detail tags).json.get? "tags" =
      some (.array (tags.map Tag.json)) := get?_record_eq_some_iff.mpr (.inr ⟨rfl, rfl⟩)
  have keyed : (fun tag => (Json.get? "key" tag).bind Json.text? == some key) ∘ Tag.json =
      fun tag : Tag => tag.key == key :=
    funext fun tag => Option.some_beq_some
  rw [tagValue, listed]
  simp only [Option.bind_eq_bind, Option.bind_some, Json.items?, List.find?_map, keyed]
  cases tags.find? fun tag => tag.key == key <;> rfl

/-- The key of a tag finds the first tag with that key. -/
theorem find_tag (detail : Detail) (tags : List Tag) (key : String) :
    find (Record.ofDetail detail tags).json ("tag:" ++ key) =
      (tags.find? fun tag => tag.key == key).map Tag.value := by
  have marked : tagMark.isPrefixOf? ("tag:" ++ key).toList = some key.toList := by
    rw [String.toList_append]
    rfl
  rw [find, extract, marked]
  dsimp only
  rw [String.ofList_toList, tagValue_record]
  cases tags.find? fun tag => tag.key == key <;> rfl

theorem eq_tag_append {path : String} {key : List Char}
    (marked : tagMark.isPrefixOf? path.toList = some key) : path = "tag:" ++ String.ofList key := by
  have whole : path.toList = tagMark ++ key :=
    (List.append_eq_of_isPrefixOf?_eq_some marked).symm
  apply String.toList_injective
  rw [String.toList_append, String.toList_ofList (l := key), whole, tagMark]

/-- No name of an attribute is cut into steps or taken for the key of a tag. -/
theorem plain_of_mem_attributes {name : String} {value : Option String}
    (stands : (name, value) ∈ attributes detail) :
    tagMark.isPrefixOf? name.toList = none ∧ '.' ∉ name.toList := by
  have plain : ∀ name ∈ ["id", "key_id", "key_spec", "key_state", "default_key_flag",
      "keystore_id", "key_rotation_enabled", "domain_id", "key_alias", "key_description",
      "key_usage", "origin", "creation_date"],
      tagMark.isPrefixOf? name.toList = none ∧ '.' ∉ name.toList := by decide
  exact plain name (List.mem_map_of_mem (f := Prod.fst) stands)

theorem unmarked_tags (later : List (List Char)) :
    tagMark.isPrefixOf? (pathOf ("tags".toList :: later)).toList = none := by
  cases later with
  | nil => rfl
  | cons step others =>
      rw [pathOf, String.toList_ofList, List.intercalate_cons_cons]
      rfl

theorem descend_record (detail : Detail) (tags : List Tag) (name : String) :
    descend (Record.ofDetail detail tags).json name.toList =
      (Record.ofDetail detail tags).json.get? name := by
  rw [json_record, descend, String.ofList_toList]
  exact nofun

theorem find_below_tags {steps : List (List Char)} {node : Json} {text : String}
    (noDot : ∀ step ∈ steps, '.' ∉ step)
    (followed : steps.foldlM descend (.array (tags.map Tag.json)) = some node)
    (reads : textOf node = some text) :
    find (Record.ofDetail detail tags).json (pathOf ("tags".toList :: steps)) = some text := by
  have listed : descend (Record.ofDetail detail tags).json "tags".toList =
      some (.array (tags.map Tag.json)) := by
    rw [descend_record]
    exact get?_record_eq_some_iff.mpr (.inr ⟨rfl, rfl⟩)
  exact find_pathOf (unmarked_tags steps) (List.cons_ne_nil _ _)
    (List.forall_mem_cons.mpr ⟨by decide, noDot⟩)
    (foldlM_descend_cons.mpr ⟨_, listed, followed⟩) reads

/-- A path finds a text in a record exactly if it is one of the paths with that text. -/
theorem find_eq_some_iff_finds {path text : String} :
    find (Record.ofDetail detail tags).json path = some text ↔ Finds detail tags path text := by
  constructor
  · intro found
    cases marked : tagMark.isPrefixOf? path.toList with
    | some key =>
        rw [find, extract, marked] at found
        dsimp only at found
        rw [tagValue_record, Option.bind_map] at found
        obtain ⟨tag, first, reads⟩ := Option.bind_eq_some_iff.mp found
        cases reads
        rw [eq_tag_append marked]
        exact .tagged _ tag first
    | none =>
        rw [find_of_unmarked marked] at found
        obtain ⟨node, followed, reads⟩ := Option.bind_eq_some_iff.mp found
        have finds := finds_of_followed (Text.fields_ne_nil '.' _) followed reads
        rwa [pathOf, Text.fields_eq_splitOn, List.intercalate_splitOn, String.ofList_toList]
          at finds
  · intro finds
    cases finds with
    | given name value stands =>
        obtain ⟨unmarked, noDot⟩ := plain_of_mem_attributes stands
        have found : descend (Record.ofDetail detail tags).json path.toList = some (.text text) := by
          rw [descend_record]
          exact get?_record_eq_some_iff.mpr (.inl ⟨text, stands, rfl⟩)
        rw [← pathOf_singleton path] at unmarked ⊢
        exact find_pathOf unmarked (List.cons_ne_nil _ _) (by simpa using noDot)
          (foldlM_descend_cons.mpr ⟨_, found, rfl⟩) rfl
    | tagged key tag first => rw [find_tag, first, Option.map_some]
    | tags =>
        rw [← pathOf_singleton "tags"]
        exact find_below_tags nofun rfl rfl
    | tagAt step index tag reads stands =>
        have item := descend_tags_eq_some_iff.mpr ⟨index, tag, reads, stands, rfl⟩
        rw [← pathOf_tagAt]
        exact find_below_tags (by simpa using reads.dot_not_mem)
          (foldlM_descend_cons.mpr ⟨_, item, rfl⟩) rfl
    | tagKeyAt step index tag reads stands =>
        have item := descend_tags_eq_some_iff.mpr ⟨index, tag, reads, stands, rfl⟩
        have member : descend tag.json "key".toList = some (.text tag.key) :=
          get?_tag_eq_some_iff.mpr (.inl ⟨rfl, rfl⟩)
        change find _ ("tags." ++ step ++ ("." ++ "key")) = _
        rw [← pathOf_tagMemberAt]
        exact find_below_tags (by simpa using reads.dot_not_mem)
          (foldlM_descend_cons.mpr ⟨_, item, foldlM_descend_cons.mpr ⟨_, member, rfl⟩⟩) rfl
    | tagValueAt step index tag reads stands =>
        have item := descend_tags_eq_some_iff.mpr ⟨index, tag, reads, stands, rfl⟩
        have member : descend tag.json "value".toList = some (.text tag.value) :=
          get?_tag_eq_some_iff.mpr (.inr ⟨rfl, rfl⟩)
        change find _ ("tags." ++ step ++ ("." ++ "value")) = _
        rw [← pathOf_tagMemberAt]
        exact find_below_tags (by simpa using reads.dot_not_mem)
          (foldlM_descend_cons.mpr ⟨_, item, foldlM_descend_cons.mpr ⟨_, member, rfl⟩⟩) rfl

theorem Test.accepts_iff (test : Test) (values : List String) (found : Option String) :
    test.accepts values found = true ↔
      match test with
      | .equal | .oneOf => ∃ text ∈ values, found = some text
      | .differ | .noneOf => ¬∃ text ∈ values, found = some text
      | .present => ∃ text, found = some text
      | .absent => ¬∃ text, found = some text := by
  cases test <;> cases found <;> simp [Test.accepts]

/-- A path finds one text in a record at most. Equality and membership accept a record whose
text is one of the values, their negations accept every other record, and the last two tests
ask whether there is a text. -/
theorem accepts_iff_finds (filter : Filter) (detail : Detail) (tags : List Tag) :
    (∀ first second, Finds detail tags filter.path first → Finds detail tags filter.path second →
      first = second) ∧
    (filter.accepts (Record.ofDetail detail tags) = true ↔
      match filter.test with
      | .equal | .oneOf => ∃ text ∈ filter.values, Finds detail tags filter.path text
      | .differ | .noneOf => ¬∃ text ∈ filter.values, Finds detail tags filter.path text
      | .present => ∃ text, Finds detail tags filter.path text
      | .absent => ¬∃ text, Finds detail tags filter.path text) := by
  constructor
  · intro first second found again
    rw [← find_eq_some_iff_finds] at found again
    exact Option.some.inj (found.symm.trans again)
  · rw [accepts, acceptsDocument, Test.accepts_iff]
    simp only [find_eq_some_iff_finds]

theorem second_tag_found_at_signed_index :
    Filter.accepts ⟨"tags.+01.key", .equal, ["team", "env"]⟩
      (Record.ofDetail { keyId := "k", state := "7" } [⟨"owner", "kim"⟩, ⟨"env", "prod"⟩]) =
        true := by
  have found : Finds { keyId := "k", state := "7" } [⟨"owner", "kim"⟩, ⟨"env", "prod"⟩]
      "tags.+01.key" "env" :=
    .tagKeyAt "+01" 1 ⟨"env", "prod"⟩ (Text.natural?_eq_some_iff.mp (by decide)) rfl
  exact (accepts_iff_finds _ _ _).2.mpr ⟨"env", by decide, found⟩

end KeyCustody.Filter
