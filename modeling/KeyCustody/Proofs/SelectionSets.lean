import KeyCustody.Proofs.Isolation

namespace KeyCustody

/-! # Selections as sets

Which records a selection stands for depends on the set of its ids and the set of its filters
alone. Neither order nor repetition counts, nor the flag under which a filter came. -/

variable {one two : Selection}

/-- The filters of a selection, under either flag. -/
def Selection.allFilters (selection : Selection) : List Filter :=
  selection.filters ++ selection.allKeysDisable

/-- The selections have the same ids and the same filters. -/
structure Selection.SameSets (one two : Selection) : Prop where
  ids : ∀ id, id ∈ one.ids ↔ id ∈ two.ids
  filters : ∀ filter, filter ∈ one.allFilters ↔ filter ∈ two.allFilters

namespace Remediation

theorem forall_mem_criteria {selection : Selection} {record : Key.Record} :
    (∀ criterion ∈ selection.criteria, criterion.accepts record) ↔
      ∀ filter ∈ selection.allFilters, filter.accepts record := by
  simp only [Selection.criteria, Selection.allFilters, List.forall_mem_append,
    List.forall_mem_map, Criterion.accepts, Criterion.filter]

theorem selects_congr (same : one.SameSets two) (record : Key.Record) :
    Selects one.ids one.criteria record ↔ Selects two.ids two.criteria record := by
  have none : one.ids = [] ↔ two.ids = [] := by
    simp only [List.eq_nil_iff_forall_not_mem, same.ids]
  rw [Selects, Selects, forall_mem_criteria, forall_mem_criteria, none, same.ids]
  simp only [same.filters]

theorem select_congr (same : one.SameSets two) :
    select one.ids one.criteria = select two.ids two.criteria := by
  rw [select_eq, select_eq]
  simp only [selects_congr same]

/-- The calls end with a listing of keys, and the records are some of those that it gives
together with the tags, in the same order. -/
def SelectedFrom (calls : List Answered) (selected : List Key.Record) : Prop :=
  ∃ (pages : List Answered) (details : List Key.Detail),
    calls = pages ++ [⟨.listKeys Inventory.everySpec, .ok details⟩] ∧
    selected.Sublist (Inventory.merge (Inventory.gathered pages) details) ∧
    (selected.map Key.Record.keyId).Sublist (details.map Key.Detail.keyId)

theorem select_selectedFrom (ids : List String) (criteria : List Criterion) :
    (select ids criteria).Ensures fun calls result =>
      ∀ selected, result = .ok selected → SelectedFrom calls selected := by
  refine (select_ensures ids criteria).mono fun calls result found selected ok => ?_
  obtain ⟨listed, lists, rfl⟩ := found
  cases lists with
  | failed pages cause asked => cases ok
  | listed pages details asked =>
      cases ok
      refine ⟨pages, details, rfl, List.filter_sublist, ?_⟩
      rw [← Inventory.map_keyId_merge (Inventory.gathered pages)]
      exact List.filter_sublist.map Key.Record.keyId

theorem run_congr (same : one.SameSets two) (action : Action) :
    run action one.ids one.criteria = run action two.ids two.criteria := by
  rw [run, run, select_congr same]

/-- Selections with the same ids and the same filters come to the same records wherever the
providers answer alike, and these stand in the listing in its order. A run for the one makes the
calls of a run for the other and gives the same report. -/
theorem selection_depends_on_sets (first : World Question Question.Reply σ)
    (second : World Question Question.Reply τ) (linked : σ → τ → Prop)
    (alike : Alike (fun _ => True) linked first second) (state : σ) (last : τ)
    (start : linked state last) (one two : Selection) (same : one.SameSets two)
    (action : Action) :
    let chosen := (select one.ids one.criteria).attempt.run first state
    let again := (select two.ids two.criteria).attempt.run second last
    let ran := (run action one.ids one.criteria).attempt.run first state
    let rerun := (run action two.ids two.criteria).attempt.run second last
    chosen.value = again.value ∧ asks chosen.calls = asks again.calls ∧
    (∀ selected, chosen.value = .ok selected → SelectedFrom chosen.calls selected) ∧
    ran.value = rerun.value ∧ asks ran.calls = asks rerun.calls := by
  intro chosen again ran rerun
  have listing : AgreesOnListing fun _ => True := ⟨fun _ => trivial, fun _ => trivial⟩
  have selects : Errand.Couples (fun _ => True) Eq (select one.ids one.criteria)
      (select two.ids two.criteria) := by
    rw [← select_congr same]
    exact select_couples listing one.ids one.criteria
  have runs : Errand.Couples (fun _ => True) (ReportsAlike fun _ => True)
      (run action one.ids one.criteria) (run action two.ids two.criteria) := by
    rw [← run_congr same]
    exact run_couples listing (fun _ _ => trivial) one.ids one.criteria
  obtain ⟨selectAsks, records⟩ := selects.holds alike start
  obtain ⟨runAsks, reports⟩ := runs.holds alike start
  exact ⟨records.eq fun _ _ => id, selectAsks,
    (select_selectedFrom one.ids one.criteria).holds first state,
    reports.eq fun _ _ => ReportsAlike.eq, runAsks⟩

/-- Ids given the other way round and twice, and filters moved to the other flag, select the
first and the last of three keys as before. -/
theorem rearranged_selection :
    let details : List Key.Detail :=
      [{ keyId := "k1", spec := "SM4" }, { keyId := "k2", spec := "SM4" },
        { keyId := "k3", spec := "SM4" }]
    let answer := Inventory.catalog [⟨"k3", [⟨"env", "prod"⟩]⟩] details
    let spec : Filter := ⟨"key_spec", .equal, ["SM4"]⟩
    let untagged : Filter := ⟨"tag:stage", .absent, []⟩
    let one : Selection := ⟨["k3", "k1"], [spec, untagged], []⟩
    let two : Selection := ⟨["k1", "k3", "k1"], [untagged], [untagged, spec]⟩
    let chosen := (select one.ids one.criteria).attempt.run (steadyWorld answer) ()
    let again := (select two.ids two.criteria).attempt.run (numberingWorld answer) 0
    let ran := (run .enableKey one.ids one.criteria).attempt.run (steadyWorld answer) ()
    let rerun := (run .enableKey two.ids two.criteria).attempt.run (numberingWorld answer) 0
    (Alike (fun _ => True) (fun _ _ => True) (steadyWorld answer) (numberingWorld answer) ∧
      one.SameSets two) ∧
    chosen.value = again.value ∧
    chosen.value.map (List.map Key.Record.keyId) = .ok ["k1", "k3"] ∧
    ran.value = rerun.value ∧ asks ran.calls = asks rerun.calls := by
  intro details answer spec untagged one two chosen again ran rerun
  have tokenless := tokenless_catalog [⟨"k3", [⟨"env", "prod"⟩]⟩] details
  have answers : Answers (steadyWorld answer) answer := ⟨tokenless, fun _ _ => rfl⟩
  have others : Answers (numberingWorld answer) answer := ⟨tokenless, fun _ _ => rfl⟩
  have alike : Alike (fun _ => True) (fun _ _ => True) (steadyWorld answer)
      (numberingWorld answer) := answers.alike others fun _ _ => rfl
  have same : one.SameSets two := by
    refine ⟨fun id => ?_, fun filter => ?_⟩
    · simp only [one, two, List.mem_cons, List.not_mem_nil]
      tauto
    · simp only [one, two, Selection.allFilters, List.mem_append, List.mem_cons, List.not_mem_nil]
      tauto
  have law := selection_depends_on_sets (steadyWorld answer) (numberingWorld answer)
    (fun _ _ => True) alike () 0 trivial one two same .enableKey
  exact ⟨⟨alike, same⟩, law.1, by decide +kernel, law.2.2.2⟩

end Remediation

end KeyCustody
