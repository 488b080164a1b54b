import KeyCustody.Proofs.Cloud.Settlement
import KeyCustody.Proofs.Isolation

namespace KeyCustody

/-! # Missing tags

Tags are collected as far as they come, and a key has all of its tags or none. Filters that ask
for a tag, and filters that do not look at tags, accept no record for the lack of them. So with
fewer tags a selection by such filters holds keys that it would hold with more, and nothing is
done to a key because its tags are missing. -/

open Key (Detail Record Tag)

namespace Filter

variable {detail : Detail} {tags : List Tag} {path text : String} {filter : Filter}

/-- A path that leads to no tag, neither by its key nor through the list of tags. -/
structure ApartFromTags (path : String) : Prop where
  unmarked : ¬ "tag:".toList <+: path.toList
  elsewhere : path.toList.takeWhile (· ≠ '.') ≠ "tags".toList

/-- Filters that accept no record for the lack of tags. -/
inductive FailsClosed : Filter → Prop where
  | asks (key : String) (test : Test) (values : List String)
      (positive : test = .equal ∨ test = .oneOf ∨ test = .present) :
      FailsClosed ⟨"tag:" ++ key, test, values⟩
  | apart (filter : Filter) (apart : ApartFromTags filter.path) : FailsClosed filter

theorem takeWhile_tags (rest : String) :
    ("tags." ++ rest).toList.takeWhile (· ≠ '.') = "tags".toList := by
  rw [String.toList_append]
  rfl

theorem Finds.of_apart (finds : Finds detail tags path text) (apart : ApartFromTags path)
    (others : List Tag) : Finds detail others path text := by
  cases finds with
  | given name value stands => exact .given _ _ stands
  | tagged key tag first =>
      exact absurd ⟨key.toList, String.toList_append.symm⟩ apart.unmarked
  | tags => exact absurd rfl apart.elsewhere
  | tagAt step index tag reads stands => exact absurd (takeWhile_tags step) apart.elsewhere
  | tagKeyAt step index tag reads stands =>
      refine absurd ?_ apart.elsewhere
      rw [String.append_assoc]
      exact takeWhile_tags (step ++ ".key")
  | tagValueAt step index tag reads stands =>
      refine absurd ?_ apart.elsewhere
      rw [String.append_assoc]
      exact takeWhile_tags (step ++ ".value")

theorem find_eq_of_apart (apart : ApartFromTags path) (detail : Detail) (tags others : List Tag) :
    find (Record.ofDetail detail tags).json path =
      find (Record.ofDetail detail others).json path := by
  refine Option.ext fun text => ?_
  rw [find_eq_some_iff_finds, find_eq_some_iff_finds]
  exact ⟨fun finds => finds.of_apart apart others, fun finds => finds.of_apart apart tags⟩

theorem FailsClosed.accepts_of_bare (closed : filter.FailsClosed) (tags : List Tag)
    (accepted : filter.accepts (Record.ofDetail detail []) = true) :
    filter.accepts (Record.ofDetail detail tags) = true := by
  cases closed with
  | asks key test values positive =>
      rw [accepts, acceptsDocument, find_tag] at accepted
      rcases positive with rfl | rfl | rfl <;> cases accepted
  | apart filter apart =>
      rwa [accepts, acceptsDocument, find_eq_of_apart apart detail tags []]

end Filter

namespace Inventory

variable {few many : TagMap}

/-- What the one collection holds, the other holds too. -/
def TagMap.Within (few many : TagMap) : Prop :=
  ∀ id tags, few.find? id = some tags → many.find? id = some tags

theorem tagsLeft_of_within (within : few.Within many) (ahead : List Detail) (id : String) :
    tagsLeft few ahead id = [] ∨ tagsLeft few ahead id = tagsLeft many ahead id := by
  rw [tagsLeft, tagsLeft]
  split
  · exact .inl rfl
  · rw [TagMap.tagsOf, TagMap.tagsOf]
    cases held : few.find? id with
    | none => exact .inl rfl
    | some tags => exact .inr (by rw [within id tags held])

/-- What the provider answers when the keys are listed, after the pages of tags. -/
def listing (world : World Question Question.Reply σ) (state : σ) :
    Except Error (List Detail) :=
  (world.reply (.call (.listKeys everySpec)) (collectTags.run world state).state).1

theorem value_joinKeys (world : World Question Question.Reply σ) (state : σ) (tags : TagMap) :
    ((joinKeys tags).attempt.run world state).value =
      (world.reply (.call (.listKeys everySpec)) state).1.map (merge tags) := by
  change (Dialogue.run world (Dialogue.ask (.call (.listKeys everySpec)) _) state).value = _
  rw [Dialogue.run]
  generalize world.reply (.call (.listKeys everySpec)) state = replied
  obtain ⟨answer, after⟩ := replied
  cases answer with
  | error cause => rfl
  | ok details => rfl

theorem value_listKeys (world : World Question Question.Reply σ) (state : σ) :
    (listKeys.attempt.run world state).value =
      (listing world state).map (merge (collectTags.run world state).value) := by
  rw [attempt_listKeys, Dialogue.run_bind]
  exact value_joinKeys world _ _

end Inventory

/-- An errand that only makes something of the value of another. -/
theorem Errand.value_bind_pure (errand : Errand α) (f : α → β)
    (world : World Question Question.Reply σ) (state : σ) :
    ((errand >>= fun value => pure (f value)).attempt.run world state).value =
      (errand.attempt.run world state).value.map f := by
  rw [attempt, attempt, ExceptT.run_bind, Dialogue.bind_eq, Dialogue.run_bind]
  dsimp only
  cases (Dialogue.run world errand.run state).value with
  | error cause => rfl
  | ok value => rfl

namespace Remediation

variable {ids : List String} {criteria : List Criterion} {few many : Inventory.TagMap}

theorem value_select (ids : List String) (criteria : List Criterion)
    (world : World Question Question.Reply σ) (state : σ) :
    ((select ids criteria).attempt.run world state).value =
      (Inventory.listing world state).map fun details =>
        (Inventory.merge (Inventory.collectTags.run world state).value details).filter
          fun record => Selects ids criteria record := by
  rw [select_eq, Errand.value_bind_pure, Inventory.value_listKeys]
  cases Inventory.listing world state with
  | error cause => rfl
  | ok details => rfl

theorem Selects.of_bare {detail : Detail}
    (closed : ∀ criterion ∈ criteria, criterion.filter.FailsClosed) (tags : List Tag)
    (selected : Selects ids criteria (Record.ofDetail detail [])) :
    Selects ids criteria (Record.ofDetail detail tags) :=
  ⟨selected.1, fun criterion member =>
    (closed criterion member).accepts_of_bare tags (selected.2 criterion member)⟩

def places (ids : List String) (criteria : List Criterion) (records : List Record) : List Nat :=
  (List.range records.length).filter fun place =>
    records[place]?.any fun record => Selects ids criteria record

theorem filter_eq_filterMap_places (p : α → Bool) (values : List α) :
    values.filter p =
      ((List.range values.length).filter fun place => values[place]?.any p).filterMap
        fun place => values[place]? := by
  induction values with
  | nil => rfl
  | cons value rest induction =>
      -- Behind the first value all positions are one further on.
      have later : (((List.range rest.length).map Nat.succ).filter fun place =>
          (value :: rest)[place]?.any p).filterMap (fun place => (value :: rest)[place]?) =
          rest.filter p := by
        rw [List.filter_map, List.filterMap_map, induction]
        rfl
      rw [List.length_cons, List.range_succ_eq_map, List.filter_cons, List.filter_cons]
      cases accepted : p value with
      | true => simp [accepted, later]
      | false => simp [accepted, later]

theorem places_sublist (within : few.Within many)
    (closed : ∀ criterion ∈ criteria, criterion.filter.FailsClosed) (details : List Detail) :
    (places ids criteria (Inventory.merge few details)).Sublist
      (places ids criteria (Inventory.merge many details)) := by
  rw [places, places, Inventory.length_merge, Inventory.length_merge]
  refine List.monotone_filter_right _ fun place chosen => ?_
  rw [Inventory.getElem?_merge] at chosen ⊢
  cases listed : details[place]? with
  | none =>
      rw [listed] at chosen
      cases chosen
  | some detail =>
      rw [listed, Option.map_some, Option.any_some, decide_eq_true_iff] at chosen
      rw [Option.map_some, Option.any_some, decide_eq_true_iff]
      rcases Inventory.tagsLeft_of_within within (details.take place) detail.keyId with none | same
      · rw [none] at chosen
        exact chosen.of_bare closed _
      · rwa [← same]

/-- The calls of an action for records, without tokens. -/
def callsFor (action : Action) (records : List Record) : List Service.Call :=
  (records.filter action.qualifies).map fun record => action.call record.keyId ""

theorem asks_of_actsOn {action : Action} {calls : List Answered} {records : List Record}
    (acted : List.Forall₂ action.ActsOn calls records) :
    asks calls = records.map fun record => action.call record.keyId "" := by
  induction acted with
  | nil => rfl
  | @cons answered record calls records acts acted induction =>
      obtain ⟨token, question⟩ := acts
      rw [asks, List.map_cons, question, action.withoutToken_call, ← asks, induction,
        List.map_cons]

theorem finish_asks (action : Action) (chosen : Except Error (List Record)) :
    (Cloud.finish action chosen).Ensures fun calls _ =>
      asks calls = callsFor action (chosen.toOption.getD []) := by
  cases chosen with
  | error cause => rfl
  | ok selected =>
      rw [Cloud.finish, Custody.ensures_bind, Custody.ensures_note, Custody.ensures_bind]
      refine (treatAll_ensures action selected).mono fun calls reports treated => ?_
      rw [Custody.ensures_pure, List.append_nil]
      exact asks_of_actsOn treated.1

theorem asks_run (action : Action) (ids : List String) (criteria : List Criterion)
    (world : World Question Question.Reply σ) (state : σ) :
    let chosen := (select ids criteria).attempt.run world state
    asks ((run action ids criteria).attempt.run world state).calls =
      asks chosen.calls ++ callsFor action (chosen.value.toOption.getD []) := by
  intro chosen
  rw [Cloud.attempt_run, Dialogue.bind_eq, Dialogue.run_bind, Run.calls, callsOf_append, asks,
    List.map_append]
  exact congrArg _ ((finish_asks action chosen.value).holds world chosen.state)

theorem qualifies_ofDetail (action : Action) (detail : Detail) (tags : List Tag) :
    action.qualifies (Record.ofDetail detail tags) =
      action.qualifies (Record.ofDetail detail []) := by
  cases action <;> rfl

/-- The call for the key at a position does not depend on tags. -/
def callAt (action : Action) (details : List Detail) (place : Nat) : Option Service.Call :=
  (details[place]?.filter fun detail => action.qualifies (Record.ofDetail detail [])).map
    fun detail => action.call detail.keyId ""

theorem callsFor_at (action : Action) (tags : Inventory.TagMap) (details : List Detail)
    (places : List Nat) :
    callsFor action (places.filterMap fun place => (Inventory.merge tags details)[place]?) =
      places.filterMap (callAt action details) := by
  rw [callsFor, List.filter_filterMap, List.map_filterMap]
  refine List.filterMap_congr fun place _ => ?_
  rw [Inventory.getElem?_merge, callAt]
  cases details[place]? with
  | none => rfl
  | some detail =>
      simp only [Option.map_some, Option.filter_some, qualifies_ofDetail]
      split <;> rfl

theorem callsFor_sublist (action : Action) (few many : Inventory.TagMap) (details : List Detail)
    {narrow wide : List Nat} (narrower : narrow.Sublist wide) :
    (callsFor action (narrow.filterMap fun place => (Inventory.merge few details)[place]?)).Sublist
      (callsFor action (wide.filterMap fun place => (Inventory.merge many details)[place]?)) := by
  rw [callsFor_at, callsFor_at]
  exact narrower.filterMap _

/-- Where the keys are listed alike and fewer tags are collected, the positions that are selected
are among those that are selected with more tags, and what is asked for is among what is asked for
then, as long as every filter fails closed. -/
theorem missing_tags_select_no_more (first : World Question Question.Reply σ)
    (second : World Question Question.Reply τ) (state : σ) (last : τ)
    (alike : Inventory.listing first state = Inventory.listing second last)
    (within : (Inventory.collectTags.run first state).value.Within
      (Inventory.collectTags.run second last).value)
    (ids : List String) (criteria : List Criterion)
    (closed : ∀ criterion ∈ criteria, criterion.filter.FailsClosed) (action : Action) :
    let few := (Inventory.collectTags.run first state).value
    let many := (Inventory.collectTags.run second last).value
    let chosen := (select ids criteria).attempt.run first state
    let again := (select ids criteria).attempt.run second last
    let ran := (run action ids criteria).attempt.run first state
    let rerun := (run action ids criteria).attempt.run second last
    (match Inventory.listing first state with
      | .error cause => chosen.value = .error cause ∧ again.value = .error cause
      | .ok details =>
          ∃ places wider : List Nat,
            places.Sublist wider ∧ wider.Sublist (List.range details.length) ∧
            chosen.value =
              .ok (places.filterMap fun place => (Inventory.merge few details)[place]?) ∧
            again.value =
              .ok (wider.filterMap fun place => (Inventory.merge many details)[place]?)) ∧
    ∃ acts more, acts.Sublist more ∧ asks ran.calls = asks chosen.calls ++ acts ∧
      asks rerun.calls = asks again.calls ++ more := by
  intro few many chosen again ran rerun
  have selected : chosen.value = _ := value_select ids criteria first state
  have reselected : again.value = _ := value_select ids criteria second last
  have asked : asks ran.calls =
      asks chosen.calls ++ callsFor action (chosen.value.toOption.getD []) :=
    asks_run action ids criteria first state
  have reasked : asks rerun.calls =
      asks again.calls ++ callsFor action (again.value.toOption.getD []) :=
    asks_run action ids criteria second last
  rw [← alike] at reselected
  rw [selected] at asked
  rw [reselected] at reasked
  cases listed : Inventory.listing first state with
  | error cause =>
      rw [listed] at selected reselected asked reasked
      exact ⟨⟨selected, reselected⟩, [], [], List.nil_sublist _, asked, reasked⟩
  | ok details =>
      rw [listed] at selected reselected asked reasked
      rw [Except.map, filter_eq_filterMap_places] at selected reselected asked reasked
      have narrower : (places ids criteria (Inventory.merge few details)).Sublist
          (places ids criteria (Inventory.merge many details)) :=
        places_sublist within closed details
      have bounded : (places ids criteria (Inventory.merge many details)).Sublist
          (List.range details.length) := by
        rw [places, Inventory.length_merge]
        exact List.filter_sublist
      exact ⟨⟨_, _, narrower, bounded, selected, reselected⟩, _, _,
        callsFor_sublist action few many details narrower, asked, reasked⟩

/-- Where the tags of the second key are missing, only the first of three keys is disabled. With
them the second key is disabled too. The third key has another tag. -/
theorem second_key_spared_without_tags :
    let details : List Detail :=
      [{ keyId := "k1", state := "2" }, { keyId := "k2", state := "2" },
        { keyId := "k3", state := "2" }]
    let prod : List Tag := [⟨"env", "prod"⟩]
    let dev : List Tag := [⟨"env", "dev"⟩]
    let first := steadyWorld (Inventory.catalog [⟨"k1", prod⟩] details)
    let second := numberingWorld
      (Inventory.catalog [⟨"k3", dev⟩, ⟨"k2", prod⟩, ⟨"k1", prod⟩] details)
    let few := (Inventory.collectTags.run first ()).value
    let many := (Inventory.collectTags.run second 0).value
    let criteria : List Criterion :=
      [.value ⟨"tag:env", .equal, ["prod"]⟩, .allKeysDisable ⟨"key_alias", .absent, []⟩]
    let ran := (run .disableKey [] criteria).attempt.run first ()
    let rerun := (run .disableKey [] criteria).attempt.run second 0
    (Inventory.listing first () = Inventory.listing second 0 ∧ few.Within many ∧
      ∀ criterion ∈ criteria, criterion.filter.FailsClosed) ∧
    (∃ acts more listed, acts.Sublist more ∧ asks ran.calls = listed ++ acts ∧
      asks rerun.calls = listed ++ more) ∧
    (asks ran.calls).drop 2 = [.setKey .off "k1" ""] ∧
    (asks rerun.calls).drop 2 = [.setKey .off "k1" "", .setKey .off "k2" ""] := by
  intro details prod dev first second few many criteria ran rerun
  have alike : Inventory.listing first () = Inventory.listing second 0 := rfl
  have within : few.Within many := by
    intro id tags found
    have collected : few = ⟨[("k1", prod)]⟩ := rfl
    have further : many = ⟨[("k1", prod), ("k2", prod), ("k3", dev)]⟩ := rfl
    rw [collected, Inventory.TagMap.find?, List.lookup_cons] at found
    rw [further, Inventory.TagMap.find?, List.lookup_cons]
    cases same : id == "k1" with
    | true => rwa [same] at found
    | false =>
        rw [same] at found
        cases found
  have closed : ∀ criterion ∈ criteria, criterion.filter.FailsClosed := by
    intro criterion member
    rcases List.mem_pair.mp member with rfl | rfl
    · exact .asks "env" .equal ["prod"] (.inl rfl)
    · exact .apart _ ⟨by decide, by decide⟩
  obtain ⟨-, acts, more, fewer, asked, reasked⟩ :=
    missing_tags_select_no_more first second () 0 alike within [] criteria closed .disableKey
  exact ⟨⟨alike, within, closed⟩, ⟨acts, more, _, fewer, asked, reasked⟩, by decide +kernel,
    by decide +kernel⟩

end Remediation

end KeyCustody
