import KeyCustody.Proofs.MissingTags
import Mathlib.Data.List.Sort

namespace KeyCustody

/-! # Filters and their opposites

A filter that asks for values or for a field has opposites, which deny what it asks for. Whatever a
path finds in a document, one of the two accepts it and the other does not. So the keys that a
selection keeps fall apart into those that it keeps with the filter and those that it keeps with
the opposite. -/

namespace Filter

/-- The second filter denies what the first one asks for. -/
inductive Opposes : Filter → Filter → Prop where
  | values (path : String) (values : List String) {test other : Test}
      (asks : test = .equal ∨ test = .oneOf) (denies : other = .differ ∨ other = .noneOf) :
      Opposes ⟨path, test, values⟩ ⟨path, other, values⟩
  | presence (path : String) (values others : List String) :
      Opposes ⟨path, .present, values⟩ ⟨path, .absent, others⟩

variable {asked denied : Filter} {document : Json}

theorem Test.accepts_eq_not {test other : Test} (asks : test = .equal ∨ test = .oneOf)
    (denies : other = .differ ∨ other = .noneOf) (values : List String) (found : Option String) :
    test.accepts values found = !other.accepts values found := by
  rcases asks with rfl | rfl <;> rcases denies with rfl | rfl <;> cases found <;>
    simp [Test.accepts]

theorem Opposes.acceptsDocument_eq (opposes : Opposes asked denied) (document : Json) :
    asked.acceptsDocument document = !denied.acceptsDocument document := by
  cases opposes with
  | values path values asks denies => exact Test.accepts_eq_not asks denies values _
  | presence path values others => exact (Option.not_isNone _).symm

/-- Where nothing is found, the filter that denies is the one that accepts. -/
theorem Opposes.denied_accepts (opposes : Opposes asked denied)
    (nothing : find document asked.path = none) : denied.acceptsDocument document := by
  cases opposes with
  | values path values asks denies =>
      rw [acceptsDocument, nothing]
      rcases denies with rfl | rfl <;> rfl
  | presence path values others =>
      rw [acceptsDocument, nothing]
      rfl

end Filter

namespace Criterion

open KeyCustody.Filter (Opposes)

variable {criteria : List Criterion} {asked denied : Criterion} {records : List Key.Record}

/-- The positions of the records that every criterion accepts. -/
def keptAt (criteria : List Criterion) (records : List Key.Record) : List Nat :=
  (List.range records.length).filter fun place =>
    records[place]?.any fun record => criteria.all fun criterion => criterion.accepts record

theorem keep_eq_filterMap_keptAt (criteria : List Criterion) (records : List Key.Record) :
    keep criteria records = (keptAt criteria records).filterMap fun place => records[place]? :=
  Remediation.filter_eq_filterMap_places _ records

theorem keptAt_append_singleton (criteria : List Criterion) (more : Criterion)
    (records : List Key.Record) :
    keptAt (criteria ++ [more]) records = (keptAt criteria records).filter fun place =>
      records[place]?.any more.accepts := by
  rw [keptAt, keptAt, List.filter_filter]
  refine List.filter_congr fun place _ => ?_
  cases records[place]? with
  | none => rfl
  | some record => simp [Bool.and_comm]

theorem keptAt_sorted (criteria : List Criterion) (records : List Key.Record) :
    (keptAt criteria records).Pairwise (· ≤ ·) := List.pairwise_le_range.filter _

theorem lt_of_mem_keptAt {place : Nat} (member : place ∈ keptAt criteria records) :
    place < records.length := List.mem_range.mp (List.mem_filter.mp member).1

/-- At a position in the list, the opposite criterion accepts the record exactly if the other one
does not. -/
theorem accepts_at_eq_not (opposes : Opposes asked.filter denied.filter) {place : Nat}
    (within : place < records.length) :
    records[place]?.any denied.accepts = !records[place]?.any asked.accepts := by
  rw [List.getElem?_eq_getElem within, Option.any_some, Option.any_some]
  have one : asked.accepts records[place] = !denied.accepts records[place] :=
    opposes.acceptsDocument_eq records[place].json
  rw [one, Bool.not_not]

theorem merge_filter_not {places : List Nat} (sorted : places.Pairwise (· ≤ ·)) (p : Nat → Bool) :
    (places.filter p).merge (places.filter fun place => !p place) = places := by
  have merged : ((places.filter p).merge (places.filter fun place => !p place)).Pairwise
      (· ≤ ·) := by
    simpa using (sorted.filter p).merge (sorted.filter fun place => !p place)
  exact ((List.merge_perm_append _).trans (List.filter_append_perm p places)).eq_of_pairwise'
    merged sorted

/-- Whatever a document holds, exactly one of a filter and its opposite accepts it, the opposite
where nothing is found. Added to criteria, they cut the positions of the records that the criteria
keep into two lists that share none and merge into the whole again. -/
theorem opposites_split_kept (criteria : List Criterion) (asked denied : Criterion)
    (opposes : Opposes asked.filter denied.filter) (records : List Key.Record) :
    let asking := keptAt (criteria ++ [asked]) records
    let denying := keptAt (criteria ++ [denied]) records
    (∀ document, asked.filter.acceptsDocument document = !denied.filter.acceptsDocument document) ∧
    (∀ document, Filter.find document asked.filter.path = none →
      denied.filter.acceptsDocument document) ∧
    asking.Disjoint denying ∧ asking.merge denying = keptAt criteria records ∧
    ∀ chosen : List Criterion,
      keep chosen records = (keptAt chosen records).filterMap fun place => records[place]? := by
  intro asking denying
  have denies : denying = (keptAt criteria records).filter fun place =>
      !records[place]?.any asked.accepts := by
    rw [show denying = _ from keptAt_append_singleton criteria denied records]
    exact List.filter_congr fun place member => accepts_at_eq_not opposes (lt_of_mem_keptAt member)
  have asks : asking = (keptAt criteria records).filter fun place =>
      records[place]?.any asked.accepts := keptAt_append_singleton criteria asked records
  refine ⟨opposes.acceptsDocument_eq, fun _ => opposes.denied_accepts, ?_, ?_,
    fun chosen => keep_eq_filterMap_keptAt chosen records⟩
  · rw [asks, denies]
    intro place taken left
    have refused := (List.mem_filter.mp left).2
    rw [(List.mem_filter.mp taken).2] at refused
    cases refused
  · rw [asks, denies]
    exact merge_filter_not (keptAt_sorted criteria records) _

/-- Four keys of which three have a spec that is looked for: one of them has the alias that is asked
for, one has another and one has none. -/
theorem alias_and_its_opposite_split_keys :
    let records : List Key.Record :=
      [.ofDetail { keyId := "k1", spec := "SM4", aliasName := some "b" } [],
        .ofDetail { keyId := "k2", spec := "SM4" } [],
        .ofDetail { keyId := "k3", spec := "SM2", aliasName := some "a" } [],
        .ofDetail { keyId := "k4", spec := "SM4", aliasName := some "a" } []]
    let spec : Criterion := .value ⟨"key_spec", .equal, ["SM4"]⟩
    let asked : Criterion := .value ⟨"key_alias", .oneOf, ["a", "c"]⟩
    let denied : Criterion := .allKeysDisable ⟨"key_alias", .noneOf, ["a", "c"]⟩
    Opposes asked.filter denied.filter ∧
    keptAt [spec, asked] records = [3] ∧ keptAt [spec, denied] records = [0, 1] ∧
    (keptAt [spec, asked] records).merge (keptAt [spec, denied] records) =
      keptAt [spec] records := by
  intro records spec asked denied
  have opposes : Opposes asked.filter denied.filter := .values _ _ (.inr rfl) (.inr rfl)
  have split := opposites_split_kept [spec] asked denied opposes records
  exact ⟨opposes, by decide +kernel, by decide +kernel, split.2.2.2.1⟩

end Criterion

end KeyCustody
