import KeyCustody.Proofs.Inventory
import KeyCustody.Service.Scripted
import Mathlib.Algebra.Group.Nat.Defs
import Mathlib.Data.List.Nodup

namespace KeyCustody.Inventory

/-! # The pages of tags

Pages are asked for in turn up to the first answer that ends the paging, and of the entries
that came for a key the last one counts. -/

/-- The calls for the pages from an offset on, with their answers. -/
def pagesFrom (offset : Nat) : List (Except Error Service.TagPage) → List Answered
  | [] => []
  | answer :: later => ⟨pageCall offset, answer⟩ :: pagesFrom (offset + pageSize) later

/-- The keys of the pages that came. -/
def keysOf : List (Except Error Service.TagPage) → List Service.TaggedKey
  | [] => []
  | .error _ :: later => keysOf later
  | .ok page :: later => page.keys ++ keysOf later

/-- Only the last answer ends a paging, or else its page holds more keys than 64 bits count. -/
theorem PagesFrom.exists_last {offset : Nat} {calls : List Answered}
    (pages : PagesFrom offset calls) :
    ∃ earlier last, calls = pagesFrom offset (earlier ++ [last]) ∧
      (∀ index answer, earlier[index]? = some answer →
        ¬ EndsPaging (offset + (index + 1) * pageSize) answer) ∧
      (EndsPaging (offset + (earlier.length + 1) * pageSize) last ∨
        ∃ page, last = .ok page ∧ 2 ^ 64 < page.keys.length) := by
  induction pages with
  | last offset answer ends =>
      refine ⟨[], answer, rfl, by simp, .inl ?_⟩
      simpa using ends
  | uncounted offset page huge => exact ⟨[], .ok page, rfl, by simp, .inr ⟨page, rfl, huge⟩⟩
  | further offset page later goesOn pages induction =>
      obtain ⟨earlier, last, rfl, more, ends⟩ := induction
      have shift (count : Nat) :
          offset + pageSize + count * pageSize = offset + (count + 1) * pageSize := by
        rw [Nat.succ_mul]
        omega
      refine ⟨.ok page :: earlier, last, rfl, ?_, ?_⟩
      · intro index answer found
        cases index with
        | zero =>
            cases found
            simpa using goesOn
        | succ index =>
            rw [← shift]
            exact more index answer found
      · rw [List.length_cons, ← shift]
        exact ends

theorem pagesFrom_eq_mapIdx (offset : Nat) (answers : List (Except Error Service.TagPage)) :
    pagesFrom offset answers =
      answers.mapIdx fun index answer => ⟨pageCall (offset + index * pageSize), answer⟩ := by
  induction answers generalizing offset with
  | nil => rfl
  | cons answer later induction =>
      rw [pagesFrom, induction, List.mapIdx_cons, Nat.zero_mul, Nat.add_zero]
      refine congrArg (_ :: ·) (List.mapIdx_eq_mapIdx_iff.mpr fun index _ => ?_)
      rw [Nat.succ_mul, Nat.add_assoc, Nat.add_comm pageSize]

theorem foldl_takePage_pagesFrom (offset : Nat) (answers : List (Except Error Service.TagPage))
    (tags : TagMap) :
    (pagesFrom offset answers).foldl takePage tags = tags.insertPage (keysOf answers) := by
  induction answers generalizing offset tags with
  | nil => rfl
  | cons answer later induction =>
      rw [pagesFrom, List.foldl_cons, induction]
      cases answer with
      | error cause => rfl
      | ok page => exact List.foldl_append.symm

theorem gathered_pagesFrom (offset : Nat) (answers : List (Except Error Service.TagPage)) :
    gathered (pagesFrom offset answers) = TagMap.empty.insertPage (keysOf answers) :=
  foldl_takePage_pagesFrom offset answers .empty

theorem TagMap.entries_insertPage (tags : TagMap) (keys : List Service.TaggedKey) :
    (tags.insertPage keys).entries =
      (keys.map fun key => (key.id, key.tags)).reverse ++ tags.entries := by
  induction keys generalizing tags with
  | nil => rfl
  | cons key later induction =>
      rw [insertPage, List.foldl_cons, ← insertPage, induction, insert, List.map_cons,
        List.reverse_cons, List.append_assoc, List.singleton_append]

/-- The last of the keys that has its id. -/
def IsLast (key : Service.TaggedKey) (keys : List Service.TaggedKey) : Prop :=
  ∃ before after, keys = before ++ key :: after ∧ ∀ later ∈ after, later.id ≠ key.id

theorem TagMap.find?_insertPage_empty (keys : List Service.TaggedKey) (id : String)
    (tags : List Key.Tag) :
    (TagMap.empty.insertPage keys).find? id = some tags ↔ IsLast ⟨id, tags⟩ keys := by
  rw [find?, entries_insertPage, empty, List.append_nil, List.lookup_eq_some_iff]
  constructor
  · rintro ⟨newer, older, split, others⟩
    -- The newest entry stands first, so the entries before it are the keys after it.
    rw [List.reverse_eq_append_iff, List.reverse_cons, List.append_assoc,
      List.singleton_append, List.map_eq_append_iff] at split
    obtain ⟨before, rest, rfl, -, split⟩ := split
    obtain ⟨key, after, rfl, entry, newest⟩ := List.map_eq_cons_iff.mp split
    cases entry
    refine ⟨before, after, rfl, fun later member same => ?_⟩
    have stored : (later.id, later.tags) ∈ newer := by
      rw [← List.mem_reverse, ← newest]
      exact List.mem_map_of_mem member
    have other := others _ stored
    simp [same] at other
  · rintro ⟨before, after, rfl, others⟩
    refine ⟨(after.map fun key => (key.id, key.tags)).reverse,
      (before.map fun key => (key.id, key.tags)).reverse, by simp, fun entry member => ?_⟩
    obtain ⟨later, stands, rfl⟩ := List.mem_map.mp (List.mem_reverse.mp member)
    exact bne_iff_ne.mpr (others later stands).symm

theorem isLast_iff_mem {key : Service.TaggedKey} {keys : List Service.TaggedKey}
    (distinct : (keys.map Service.TaggedKey.id).Nodup) : IsLast key keys ↔ key ∈ keys := by
  constructor
  · rintro ⟨before, after, rfl, -⟩
    exact List.mem_append_right _ List.mem_cons_self
  · intro member
    obtain ⟨before, after, rfl⟩ := List.append_of_mem member
    refine ⟨before, after, rfl, fun later stands same => ?_⟩
    rw [List.map_append, List.map_cons] at distinct
    have alone := (List.nodup_cons.mp (List.nodup_append.mp distinct).2.1).1
    exact alone (same ▸ List.mem_map_of_mem stands)

/-- The provider gives every page as a slice of the same keys, with their number. -/
def Serves (world : World Question Question.Reply σ) (keys : List Service.TaggedKey) : Prop :=
  ∀ (offset limit : Nat) (state : σ),
    (world.reply (.call (.tagPage ⟨tagAction, toString offset, toString limit⟩)) state).1 =
      .ok ⟨(keys.drop offset).take limit, some keys.length⟩

theorem Serves.first_page {world : World Question Question.Reply σ}
    {keys : List Service.TaggedKey} (serves : Serves world keys) (program : Custody α) (state : σ)
    {answer : Except Error Service.TagPage}
    (asked : ⟨pageCall 0, answer⟩ ∈ (program.run world state).calls) :
    answer = .ok ⟨keys.take pageSize, some keys.length⟩ := by
  obtain ⟨held, same⟩ := exists_reply_of_mem_calls world program state asked
  exact same.trans (serves 0 pageSize held)

/-- Whatever is answered, the pages are asked for in turn, and the asking stops after the
first answer that ends it. Only a page of more keys than 64 bits count could be the last for
another reason. The collection holds for each key the last tags that came. A provider that
serves slices of its keys is asked for the first thousand of them and for no more. -/
theorem collectTags_asks_until_paging_ends (world : World Question Question.Reply σ)
    (state : σ) :
    let ran := collectTags.run world state
    (∃ earlier last,
      ran.calls = (earlier ++ [last]).mapIdx (fun index answer =>
        ⟨.tagPage ⟨"filter", toString (index * 1000), "1000"⟩, answer⟩) ∧
      (∀ index answer, earlier[index]? = some answer →
        ¬ EndsPaging ((index + 1) * 1000) answer) ∧
      (EndsPaging ((earlier.length + 1) * 1000) last ∨
        ∃ page, last = .ok page ∧ 2 ^ 64 < page.keys.length) ∧
      ∀ id tags, ran.value.find? id = some tags ↔
        IsLast ⟨id, tags⟩ (keysOf (earlier ++ [last]))) ∧
    ∀ keys, (keys.map Service.TaggedKey.id).Nodup → Serves world keys →
      ran.calls.length = 1 ∧
      ∀ id tags, ran.value.find? id = some tags ↔ ⟨id, tags⟩ ∈ keys.take 1000 := by
  intro ran
  obtain ⟨pages, collected⟩ := collectTags_ensures.holds world state
  obtain ⟨earlier, last, calls, more, ends⟩ := pages.exists_last
  change ran.calls = _ at calls
  change ran.value = gathered ran.calls at collected
  have found (id : String) (tags : List Key.Tag) : ran.value.find? id = some tags ↔
      IsLast ⟨id, tags⟩ (keysOf (earlier ++ [last])) := by
    rw [collected, calls, gathered_pagesFrom]
    exact TagMap.find?_insertPage_empty _ id tags
  simp only [Nat.zero_add] at more ends
  refine ⟨⟨earlier, last, ?_, more, ends, found⟩, fun keys distinct serves => ?_⟩
  · rw [calls, pagesFrom_eq_mapIdx]
    refine List.mapIdx_eq_mapIdx_iff.mpr fun index _ => ?_
    rw [Nat.zero_add]
    rfl
  · have served {answer : Except Error Service.TagPage}
        (asked : ⟨pageCall 0, answer⟩ ∈ pagesFrom 0 (earlier ++ [last])) :
        answer = .ok ⟨keys.take pageSize, some keys.length⟩ :=
      serves.first_page collectTags state (calls ▸ asked)
    have short : EndsPaging pageSize (.ok ⟨keys.take pageSize, some keys.length⟩) :=
      .inr (.inr (List.length_take_le _ _))
    cases earlier with
    | cons first others =>
        have goesOn := more 0 first rfl
        rw [served List.mem_cons_self] at goesOn
        exact absurd short (by simpa using goesOn)
    | nil =>
        have whole : last = _ := served List.mem_cons_self
        have only : keysOf [last] = keys.take 1000 := by
          rw [whole]
          exact List.append_nil _
        refine ⟨by rw [calls]; rfl, fun id tags => ?_⟩
        rw [found, List.nil_append, only]
        exact isLast_iff_mem (distinct.sublist ((List.take_sublist _ _).map _))

/-- A provider that serves slices of some keys and grants everything else. -/
def shelf (keys : List Service.TaggedKey) : (asked : Service.Call) → Except Error asked.Reply
  | .tagPage query =>
      let offset := Nat.ofDigitChars 10 query.offset.toList 0
      let limit := Nat.ofDigitChars 10 query.limit.toList 0
      .ok ⟨(keys.drop offset).take limit, some keys.length⟩
  | asked => Service.Scripted.reply 0 none asked

theorem shelf_serves (keys : List Service.TaggedKey) : Serves (steadyWorld (shelf keys)) keys := by
  intro offset limit state
  change Except.ok (⟨(keys.drop (Nat.ofDigitChars 10 (toString offset).toList 0)).take
    (Nat.ofDigitChars 10 (toString limit).toList 0), some keys.length⟩ : Service.TagPage) = _
  simp only [Nat.toString_eq_repr, Nat.toList_repr, Nat.ofDigitChars_ten_toDigits]

theorem toString_injective {first second : Nat} (same : toString first = toString second) :
    first = second := by
  have values := congrArg (fun text => Nat.ofDigitChars 10 text.toList 0) same
  simpa only [Nat.toString_eq_repr, Nat.toList_repr, Nat.ofDigitChars_ten_toDigits] using values

theorem numberedKeys_distinct (count : Nat) (idStart : String) :
    ((Service.Scripted.numberedKeys count idStart).map Service.TaggedKey.id).Nodup := by
  rw [Service.Scripted.numberedKeys, List.map_map]
  refine List.Nodup.map (fun first second same => ?_) List.nodup_range
  exact toString_injective ((String.append_right_inj idStart).mp same)

/-- Of twelve hundred keys the first thousand are collected, and the others lose their tags. -/
theorem first_thousand_keys_collected :
    let keys := Service.Scripted.numberedKeys 1200 "k"
    let ran := collectTags.run (steadyWorld (shelf keys)) ()
    ((keys.map Service.TaggedKey.id).Nodup ∧ Serves (steadyWorld (shelf keys)) keys) ∧
      ran.calls.length = 1 ∧ ran.value.find? "k999" = some [⟨"n", "999"⟩] ∧
      ran.value.find? "k1000" = none := by
  intro keys ran
  have distinct := numberedKeys_distinct 1200 "k"
  have serves := shelf_serves keys
  obtain ⟨once, found⟩ :=
    (collectTags_asks_until_paging_ends (steadyWorld (shelf keys)) ()).2 keys distinct serves
  have collected (id : String) (tags : List Key.Tag) : ran.value.find? id = some tags ↔
      ∃ index < 1000, "k" ++ toString index = id ∧ [⟨"n", toString index⟩] = tags := by
    have thousand : keys.take 1000 = Service.Scripted.numberedKeys 1000 "k" := by
      simp only [keys, Service.Scripted.numberedKeys, ← List.map_take, List.take_range]
      rfl
    rw [found, thousand, Service.Scripted.numberedKeys]
    simp
  refine ⟨⟨distinct, serves⟩, once, (collected _ _).mpr ⟨999, by decide, rfl, rfl⟩, ?_⟩
  refine Option.eq_none_iff_forall_ne_some.mpr fun tags some_tags => ?_
  obtain ⟨index, bound, same, -⟩ := (collected _ _).mp some_tags
  have thousand : index = 1000 := toString_injective ((String.append_right_inj "k").mp same)
  omega

end KeyCustody.Inventory
