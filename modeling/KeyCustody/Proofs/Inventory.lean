import KeyCustody.Inventory
import KeyCustody.Proofs.Transcript
import Mathlib.Algebra.Group.Nat.Defs

namespace KeyCustody.Inventory

/-! # What an inventory asks and gives

The pages of tags are asked for in turn, each a page further on, up to the first answer that ends
the paging, and then the keys once. The records stand in the order of the keys, whatever tags were
collected. -/

def pageCall (offset : Nat) : Service.Call :=
  .tagPage ⟨tagAction, toString offset, toString pageSize⟩

/-- The tags after one more answer. A page that failed adds none. -/
def takePage (tags : TagMap) : Answered → TagMap
  | ⟨.tagPage _, .ok page⟩ => tags.insertPage page.keys
  | _ => tags

/-- No page is asked for after this answer, if `next` is where that page would start. -/
def EndsPaging (next : Nat) : Except Error Service.TagPage → Prop
  | .error _ => True
  | .ok page => page.totalCount = none ∨ page.totalCount = some 0 ∨ page.keys.length ≤ next

theorem endsPaging_ok_iff (next : Nat) (page : Service.TagPage) :
    EndsPaging next (.ok page) ↔ page.totalCount.getD 0 = 0 ∨ page.keys.length ≤ next := by
  rw [EndsPaging, ← or_assoc]
  refine or_congr_left ?_
  cases page.totalCount <;> simp

/-- The calls of a paging from an offset on. There is one for every page in turn, and the first
answer that ends the paging is the last. So may be a page of more keys than 64 bits count. -/
inductive PagesFrom : (offset : Nat) → List Answered → Prop where
  | last (offset : Nat) (answer : Except Error Service.TagPage)
      (ends : EndsPaging (offset + pageSize) answer) :
      PagesFrom offset [⟨pageCall offset, answer⟩]
  | uncounted (offset : Nat) (page : Service.TagPage) (huge : 2 ^ 64 < page.keys.length) :
      PagesFrom offset [⟨pageCall offset, .ok page⟩]
  | further (offset : Nat) (page : Service.TagPage) (later : List Answered)
      (goesOn : ¬ EndsPaging (offset + pageSize) (.ok page))
      (pages : PagesFrom (offset + pageSize) later) :
      PagesFrom offset (⟨pageCall offset, .ok page⟩ :: later)

/-- A budget of pages that goes beyond 64 bits is never spent before the paging ends. -/
theorem collectTagsFrom_ensures {budget offset : Nat} (tags : TagMap) (asks : 0 < budget)
    (enough : 2 ^ 64 < offset + budget * pageSize) :
    (collectTagsFrom budget offset tags).Ensures fun pages collected =>
      PagesFrom offset pages ∧ collected = pages.foldl takePage tags := by
  -- Each page moves both the offset and the tags, so both vary in the induction.
  induction budget generalizing offset tags with
  | zero => exact absurd asks (Nat.lt_irrefl 0)
  | succ budget induction =>
      rw [collectTagsFrom, Custody.ensures_bind]
      refine Custody.ensures_call.mpr fun answer => ?_
      cases answer with
      | error cause =>
          simp only [Custody.ensures_bind, Custody.ensures_note, Custody.ensures_pure,
            List.append_nil]
          exact ⟨.last offset _ trivial, rfl⟩
      | ok page =>
          dsimp only
          split
          · rename_i ends
            exact ⟨.last offset _ ((endsPaging_ok_iff _ _).mpr ends), rfl⟩
          · rename_i more
            rw [Nat.succ_mul] at enough
            cases budget with
            | zero =>
                -- The page is longer than the offsets that are left.
                rw [not_or, Nat.not_le] at more
                exact ⟨.uncounted offset page (by omega), rfl⟩
            | succ budget =>
                have pages := induction (tags.insertPage page.keys) (Nat.succ_pos budget)
                  (by omega : 2 ^ 64 < offset + pageSize + (budget + 1) * pageSize)
                refine pages.mono fun later collected holds => ?_
                obtain ⟨paging, rfl⟩ := holds
                have goesOn := mt (endsPaging_ok_iff _ _).mp more
                exact ⟨.further offset page later goesOn paging, rfl⟩

def gathered (pages : List Answered) : TagMap := pages.foldl takePage .empty

theorem collectTags_ensures :
    collectTags.Ensures fun pages collected =>
      PagesFrom 0 pages ∧ collected = gathered pages :=
  collectTagsFrom_ensures .empty (Nat.succ_pos _) (by decide)

theorem map_keyId_merge (tags : TagMap) (details : List Key.Detail) :
    (merge tags details).map Key.Record.keyId = details.map Key.Detail.keyId := by
  induction details generalizing tags with
  | nil => rfl
  | cons detail rest induction =>
      rw [merge, List.map_cons, List.map_cons, induction]
      rfl

/-- The calls of an inventory with its result: pages of tags, and one listing of keys that
decides whether there are records. -/
inductive Lists : List Answered → Except Error (List Key.Record) → Prop where
  | failed (pages : List Answered) (cause : Error) (asked : PagesFrom 0 pages) :
      Lists (pages ++ [⟨.listKeys everySpec, .error cause⟩]) (.error cause)
  | listed (pages : List Answered) (details : List Key.Detail) (asked : PagesFrom 0 pages) :
      Lists (pages ++ [⟨.listKeys everySpec, .ok details⟩])
        (.ok (merge (gathered pages) details))

/-- The second part of an inventory, which lists the keys and gives them the tags collected. -/
def joinKeys (tags : TagMap) : Errand (List Key.Record) := do
  let details ← (Errand.call (.listKeys everySpec)).noting .keysUnavailable
  pure (merge tags details)

theorem joinKeys_ensures (tags : TagMap) :
    (joinKeys tags).Ensures fun calls result =>
      ∃ answer : Except Error (List Key.Detail),
        calls = [⟨.listKeys everySpec, answer⟩] ∧ result = answer.map (merge tags) := by
  rw [joinKeys, Errand.ensures_bind_pure, Errand.ensures_noting]
  exact Errand.ensures_call.mpr fun answer => ⟨answer, rfl, rfl⟩

theorem listKeys_eq : listKeys = liftM collectTags >>= joinKeys := rfl

theorem attempt_listKeys :
    listKeys.attempt = collectTags.bind fun tags => (joinKeys tags).attempt :=
  ExceptT.run_bind_lift collectTags joinKeys

theorem listKeys_ensures : listKeys.Ensures Lists := by
  rw [listKeys_eq, Errand.ensures_bind, Errand.ensures_lift]
  refine collectTags_ensures.mono fun pages tags collected => ?_
  obtain ⟨asked, rfl⟩ := collected
  refine (joinKeys_ensures (gathered pages)).mono fun calls result joined => ?_
  obtain ⟨answer, rfl, rfl⟩ := joined
  cases answer with
  | error cause => exact .failed pages cause asked
  | ok details => exact .listed pages details asked

theorem getKeys_ensures (ids : List String) :
    (getKeys ids).Ensures fun calls result =>
      ∃ listed, Lists calls listed ∧
        result = listed.map (List.filter fun record => ids.contains record.keyId) := by
  rw [getKeys, Errand.ensures_bind_pure]
  exact listKeys_ensures.mono fun calls listed lists => ⟨listed, lists, rfl⟩

end KeyCustody.Inventory
