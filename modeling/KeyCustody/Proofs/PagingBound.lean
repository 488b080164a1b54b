import KeyCustody.Proofs.TagPages

namespace KeyCustody.Inventory

/-! # How long a paging lasts

A further page is asked for only after one that holds more keys than the next offset. The offset
moves by a thousand with each page, so the largest page bounds their number, and what a provider
claims as the total count does not. -/

variable {world : World Question Question.Reply σ} {most : Nat}

/-- No page of the provider holds more keys than this, whenever and however it is asked. -/
def HoldsAtMost (world : World Question Question.Reply σ) (most : Nat) : Prop :=
  ∀ query state page, (world.reply (.call (.tagPage query)) state).1 = .ok page →
    page.keys.length ≤ most

theorem HoldsAtMost.length_le (bounded : HoldsAtMost world most) (program : Custody α) (state : σ)
    {offset : Nat} {page : Service.TagPage}
    (asked : ⟨pageCall offset, .ok page⟩ ∈ (program.run world state).calls) :
    page.keys.length ≤ most := by
  obtain ⟨held, same⟩ := exists_reply_of_mem_calls world program state asked
  exact bounded _ held page same.symm

theorem longer_of_not_endsPaging {next : Nat} {answer : Except Error Service.TagPage}
    (goesOn : ¬ EndsPaging next answer) : ∃ page, answer = .ok page ∧ next < page.keys.length := by
  cases answer with
  | error cause => exact absurd trivial goesOn
  | ok page =>
      rw [endsPaging_ok_iff, not_or, Nat.not_le] at goesOn
      exact ⟨page, rfl, goesOn.2⟩

theorem mem_pagesFrom {offset index : Nat} {answers : List (Except Error Service.TagPage)}
    {answer : Except Error Service.TagPage} (stands : answers[index]? = some answer) :
    ⟨pageCall (offset + index * pageSize), answer⟩ ∈ pagesFrom offset answers := by
  refine List.mem_of_getElem? (i := index) ?_
  rw [pagesFrom_eq_mapIdx, List.getElem?_mapIdx, stands]
  rfl

/-- The answers of a paging, the last of them apart. -/
structure Paged (calls : List Answered) (earlier : List (Except Error Service.TagPage))
    (last : Except Error Service.TagPage) : Prop where
  calls : calls = pagesFrom 0 (earlier ++ [last])
  goesOn : ∀ index answer, earlier[index]? = some answer →
    ¬ EndsPaging ((index + 1) * pageSize) answer
  ends : EndsPaging ((earlier.length + 1) * pageSize) last ∨
    ∃ page, last = .ok page ∧ 2 ^ 64 < page.keys.length

theorem exists_paged (world : World Question Question.Reply σ) (state : σ) :
    ∃ earlier last, Paged (collectTags.run world state).calls earlier last := by
  obtain ⟨earlier, last, calls, more, ends⟩ :=
    (collectTags_ensures.holds world state).1.exists_last
  simp only [Nat.zero_add] at more ends
  exact ⟨earlier, last, calls, more, ends⟩

section

variable {earlier : List (Except Error Service.TagPage)} {last : Except Error Service.TagPage}
  {program : Custody α} {state : σ}

theorem Paged.length_calls {calls : List Answered} (paged : Paged calls earlier last) :
    calls.length = earlier.length + 1 := by
  rw [paged.calls, pagesFrom_eq_mapIdx, List.length_mapIdx, List.length_append,
    List.length_singleton]

/-- The offset of the last page lies within the largest page. -/
theorem Paged.length_lt (paged : Paged (program.run world state).calls earlier last)
    (bounded : HoldsAtMost world most) (further : earlier ≠ []) :
    earlier.length * pageSize < most := by
  obtain ⟨others, final, rfl⟩ := List.eq_nil_or_concat earlier |>.resolve_left further
  rw [List.concat_eq_append] at paged ⊢
  have stands : (others ++ [final])[others.length]? = some final := List.getElem?_concat_length
  obtain ⟨page, rfl, longer⟩ := longer_of_not_endsPaging (paged.goesOn _ _ stands)
  have asked : ⟨pageCall (0 + others.length * pageSize), .ok page⟩ ∈
      (program.run world state).calls := by
    rw [paged.calls]
    refine mem_pagesFrom ?_
    rw [List.getElem?_append_left (by simp)]
    exact stands
  have short := bounded.length_le program state asked
  rw [List.length_append, List.length_singleton]
  omega

theorem Paged.ends_of_le (paged : Paged (program.run world state).calls earlier last)
    (bounded : HoldsAtMost world most) (real : most ≤ 2 ^ 64) :
    EndsPaging ((earlier.length + 1) * pageSize) last := by
  refine paged.ends.resolve_right ?_
  rintro ⟨page, rfl, huge⟩
  have asked : ⟨pageCall (0 + earlier.length * pageSize), .ok page⟩ ∈
      (program.run world state).calls := by
    rw [paged.calls]
    exact mem_pagesFrom List.getElem?_concat_length
  have short := bounded.length_le program state asked
  omega

theorem Paged.rounds_le (paged : Paged (program.run world state).calls earlier last)
    (bounded : HoldsAtMost world most) : earlier.length + 1 ≤ max 1 ((most + 999) / 1000) := by
  by_cases further : earlier = []
  · rw [further]
    exact Nat.le_max_left _ _
  · have within := paged.length_lt bounded further
    rw [pageSize] at within
    omega

end

/-- Two budgets that both reach to the end of the largest page make no difference. -/
theorem run_collectTagsFrom_congr (bounded : HoldsAtMost world most) {first second : Nat}
    (offset : Nat) (tags : TagMap) (state : σ) (asks : 0 < first) (asks' : 0 < second)
    (reaches : most ≤ offset + first * pageSize) (reaches' : most ≤ offset + second * pageSize) :
    (collectTagsFrom first offset tags).run world state =
      (collectTagsFrom second offset tags).run world state := by
  induction first generalizing second offset tags state with
  | zero => exact absurd asks (Nat.lt_irrefl 0)
  | succ first induction =>
      obtain ⟨second, rfl⟩ := Nat.exists_eq_succ_of_ne_zero (Nat.ne_of_gt asks')
      rw [collectTagsFrom, collectTagsFrom]
      refine Dialogue.run_bind_congr _ _ _ _ _ fun answer answered after => ?_
      cases answer with
      | error cause => rfl
      | ok page =>
          have short := bounded _ state page answered
          dsimp only
          split
          · rfl
          · rename_i goesOn
            rw [not_or, Nat.not_le] at goesOn
            rw [Nat.succ_mul] at reaches reaches'
            -- The page reaches beyond the next offset, so both budgets have rounds left.
            have left {count : Nat} (far : most ≤ offset + (count * pageSize + pageSize)) :
                0 < count := by
              refine Nat.pos_of_ne_zero fun spent => ?_
              rw [spent] at far
              omega
            exact induction _ _ _ (left reaches) (left reaches') (by omega) (by omega)

/-- Whatever counts a provider claims, the pages that it is asked for are no more than the
thousands that its largest page fills, and a page of up to a thousand keys is the only one. Each
page before the last holds more keys than the next offset. No more rounds are needed: with any
larger budget the run is the same, and it ends at an answer that ends the paging. -/
theorem paging_bounded_by_largest_page (world : World Question Question.Reply σ) (state : σ)
    (most : Nat) (bounded : HoldsAtMost world most) :
    let rounds := max 1 ((most + 999) / 1000)
    let ran := collectTags.run world state
    (ran.calls.length ≤ rounds ∧ (most ≤ 1000 → ran.calls.length = 1)) ∧
    (∃ earlier last,
      ran.calls = (earlier ++ [last]).mapIdx (fun index answer =>
        ⟨.tagPage ⟨"filter", toString (index * 1000), "1000"⟩, answer⟩) ∧
      (∀ index answer, earlier[index]? = some answer →
        ∃ page, answer = .ok page ∧ (index + 1) * 1000 < page.keys.length) ∧
      (most ≤ 2 ^ 64 → EndsPaging ((earlier.length + 1) * 1000) last)) ∧
    ∀ budget, rounds ≤ budget →
      (collectTagsFrom budget 0 .empty).run world state =
        (collectTagsFrom rounds 0 .empty).run world state := by
  intro rounds ran
  obtain ⟨earlier, last, paged⟩ := exists_paged world state
  have few := paged.rounds_le bounded
  refine ⟨⟨?_, fun short => ?_⟩, ⟨earlier, last, ?_, fun index answer stands => ?_, fun real => ?_⟩,
    fun budget enough => ?_⟩
  · rw [paged.length_calls]
    exact few
  · rw [paged.length_calls]
    omega
  · rw [paged.calls, pagesFrom_eq_mapIdx]
    refine List.mapIdx_eq_mapIdx_iff.mpr fun index _ => ?_
    rw [Nat.zero_add]
    rfl
  · exact longer_of_not_endsPaging (paged.goesOn index answer stands)
  · exact paged.ends_of_le bounded real
  · have positive : 0 < rounds := Nat.le_max_left _ _
    have reaches : most ≤ 0 + rounds * pageSize := by
      simp only [pageSize]
      omega
    refine run_collectTagsFrom_congr bounded 0 .empty state (by omega) positive ?_ reaches
    exact Nat.le_trans reaches (Nat.add_le_add_left (Nat.mul_le_mul_right _ enough) 0)

/-- A provider that gives the same page whatever it is asked for, and each time claims one key
more. -/
def boasting (keys : List Service.TaggedKey) : World Question Question.Reply Nat where
  reply
    | .call (.tagPage _), claimed => (.ok ⟨keys, some (claimed + 1)⟩, claimed + 1)
    | .call asked, claimed => (Service.Scripted.reply 0 none asked, claimed)
    | .host request, claimed => (stillHost request, claimed)

theorem boasting_holdsAtMost (keys : List Service.TaggedKey) :
    HoldsAtMost (boasting keys) keys.length := by
  intro query claimed page came
  have same : keys = page.keys := congrArg Service.TagPage.keys (Except.ok.inj came)
  exact Nat.le_of_eq (congrArg List.length same.symm)

/-- The bound is reached: such a provider is asked until the offsets cover its page. -/
theorem boasting_covered (keys : List Service.TaggedKey) (real : keys.length ≤ 2 ^ 64)
    (claimed : Nat) :
    keys.length ≤ (collectTags.run (boasting keys) claimed).calls.length * pageSize := by
  obtain ⟨earlier, last, paged⟩ := exists_paged (boasting keys) claimed
  have ends := paged.ends_of_le (boasting_holdsAtMost keys) real
  obtain ⟨held, same⟩ := exists_reply_of_mem_calls (boasting keys) collectTags claimed
    (paged.calls ▸ mem_pagesFrom List.getElem?_concat_length)
  have whole : last = .ok ⟨keys, some (held + 1)⟩ := same
  rw [whole, endsPaging_ok_iff] at ends
  rw [paged.length_calls]
  exact ends.resolve_left (Nat.succ_ne_zero held)

/-- Pages of twenty-five hundred keys are asked for three times. -/
theorem boasting_asked_three_times :
    let keys := Service.Scripted.numberedKeys 2500 "k"
    HoldsAtMost (boasting keys) 2500 ∧
      (collectTags.run (boasting keys) 9000).calls.length = 3 := by
  intro keys
  have size : keys.length = 2500 := by
    simp only [keys, Service.Scripted.numberedKeys, List.length_map, List.length_range]
  have bounded : HoldsAtMost (boasting keys) 2500 := size ▸ boasting_holdsAtMost keys
  have few := (paging_bounded_by_largest_page (boasting keys) 9000 2500 bounded).1.1
  have covered := boasting_covered keys (by omega) 9000
  rw [pageSize] at covered
  exact ⟨bounded, by omega⟩

end KeyCustody.Inventory
