import KeyCustody.Proofs.Coupling
import KeyCustody.Proofs.KeyMerge
import KeyCustody.Proofs.Remediation

namespace KeyCustody

/-! # Keys apart

What is asked for one key, and what is reported on it, depends on the answers for that key and
on the listing alone. So of two runs whose answers differ in the action's call for one key, the
reports differ in the entry of that key at most. -/

/-- The calls of a listing are agreed on. -/
structure AgreesOnListing (agreed : Service.Call → Prop) : Prop where
  pages : ∀ query, agreed (.tagPage query)
  keys : ∀ keySpec, agreed (.listKeys keySpec)

variable {agreed : Service.Call → Prop} {spared : String → Prop} {action : Action}

namespace Inventory

theorem collectTagsFrom_couples (listing : AgreesOnListing agreed) (pages offset : Nat)
    (tags : TagMap) :
    (collectTagsFrom pages offset tags).Couples agreed Eq (collectTagsFrom pages offset tags) := by
  induction pages generalizing offset tags with
  | zero => exact .done tags tags rfl
  | succ pages induction =>
      rw [collectTagsFrom]
      refine (Custody.couples_call (listing.pages _)).bind ?_
      rintro answer _ rfl
      cases answer with
      | error cause => exact (Custody.couples_note _).bind fun _ _ _ => .done tags tags rfl
      | ok page =>
          dsimp only
          split
          · exact .done _ _ rfl
          · exact induction _ _

theorem joinKeys_couples (listing : AgreesOnListing agreed) (tags : TagMap) :
    (joinKeys tags).Couples agreed Eq (joinKeys tags) := by
  refine Custody.couples_of_ensures (joinKeys_ensures tags) (joinKeys_ensures tags) ?_
  rintro _ _ _ _ ⟨answer, rfl, rfl⟩ ⟨reply, rfl, rfl⟩
  refine ⟨rfl, fun alike => ?_⟩
  rw [((List.forall₂_cons.mp alike).1 (listing.keys _)).reply_eq]
  exact .refl _

theorem listKeys_couples (listing : AgreesOnListing agreed) :
    listKeys.Couples agreed Eq listKeys := by
  rw [Errand.Couples, attempt_listKeys]
  refine (collectTagsFrom_couples listing _ _ _).bind ?_
  rintro tags _ rfl
  exact joinKeys_couples listing tags

end Inventory

namespace Action

/-- What an action comes to when its call fails so. -/
def failed (action : Action) : Error → Except Error Applied
  | .provider cause =>
      if action = .enableRotation ∧ cause.isBadRequest then
        .ok (.of (.skipped (.alreadyApplied cause.detail)))
      else action.failing (.provider cause)
  | cause => action.failing cause

theorem failed_eq_failing {action : Action} {cause : Error}
    (other : action = .enableRotation →
      ∀ provided, cause = .provider provided → ¬ provided.isBadRequest) :
    action.failed cause = action.failing cause := by
  cases cause with
  | provider provided => exact if_neg fun excused => other excused.1 provided rfl excused.2
  | _ => rfl

/-- What an action comes to when its call is answered so. -/
def concluded (action : Action) {keyId token : String} :
    Except Error (action.call keyId token).Reply → Except Error Applied
  | .ok reply => .ok (action.applied reply)
  | .error cause => action.failed cause

theorem concluded_congr {action : Action} {keyId token fresh : String}
    {answer : Except Error (action.call keyId token).Reply}
    {reply : Except Error (action.call keyId fresh).Reply}
    (same : SameAnswer ⟨action.call keyId token, answer⟩ ⟨action.call keyId fresh, reply⟩) :
    action.concluded answer = action.concluded reply := by
  cases action <;> cases same <;> cases answer <;> rfl

theorem withoutToken_call (action : Action) (keyId token : String) :
    (action.call keyId token).withoutToken = action.call keyId "" := by
  cases action <;> rfl

/-- An action either does not apply, or its one call decides what it comes to. -/
theorem Settles.refused_or_concluded {action : Action} {record : Key.Record}
    {calls : List Answered} {result : Except Error Applied}
    (settles : Settles action record calls result) :
    (∃ reason, action.refusal record = some reason ∧ calls = [] ∧
      result = .ok (.of (.skipped (.ineligible reason)))) ∨
    (action.refusal record = none ∧ ∃ token answer,
      calls = [⟨action.call record.keyId token, answer⟩] ∧ result = action.concluded answer) := by
  cases settles with
  | refused reason refuses => exact .inl ⟨reason, refuses, rfl, rfl⟩
  | done accepts token reply => exact .inr ⟨accepts, token, .ok reply, rfl, rfl⟩
  | unchanged accepts turnsOn token cause bad =>
      exact .inr ⟨accepts, token, .error (.provider cause), rfl, (if_pos ⟨turnsOn, bad⟩).symm⟩
  | failed accepts token cause other =>
      exact .inr ⟨accepts, token, .error cause, rfl, (failed_eq_failing other).symm⟩

/-- What an action asks for is settled by the record, and what it comes to by the answer. -/
theorem apply_couples (action : Action) (record : Key.Record) :
    (action.apply record).attempt.Couples agreed
      (fun result last => agreed (action.call record.keyId "") → result = last)
      (action.apply record).attempt := by
  refine Custody.couples_of_ensures (apply_settles action record) (apply_settles action record) ?_
  intro calls result later last settles also
  obtain ⟨reason, refuses, rfl, rfl⟩ | ⟨accepts, token, answer, rfl, rfl⟩ :=
    settles.refused_or_concluded
  · obtain ⟨other, alsoRefuses, rfl, rfl⟩ | ⟨accepts, -⟩ := also.refused_or_concluded
    · cases refuses.symm.trans alsoRefuses
      exact ⟨rfl, fun _ _ => rfl⟩
    · cases refuses.symm.trans accepts
  · obtain ⟨other, refuses, -⟩ | ⟨-, fresh, reply, rfl, rfl⟩ := also.refused_or_concluded
    · cases refuses.symm.trans accepts
    · simp only [asks, List.map_cons, List.map_nil, List.forall₂_cons, SameWhere,
        withoutToken_call, true_and]
      exact fun alike spared => concluded_congr (alike.1 spared)

end Action

namespace Remediation

/-- The entries are on one key, and they are the same if the key is spared. -/
structure EntriesAlike (spared : String → Prop) (first second : KeyReport) : Prop where
  keyId : first.keyId = second.keyId
  same : spared first.keyId → first = second

/-- The reports are on the same keys in the same order, with the same entries for those that are
spared. -/
structure ReportsAlike (spared : String → Prop) (first second : Report) : Prop where
  action : first.action = second.action
  matched : first.matched = second.matched
  results : List.Forall₂ (EntriesAlike spared) first.results second.results

theorem ReportsAlike.eq {first second : Report} (alike : ReportsAlike (fun _ => True) first second) :
    first = second := by
  have results : first.results = second.results :=
    List.forall₂_eq_eq_eq ▸ alike.results.imp fun _ _ entries => entries.same trivial
  cases first
  cases second
  cases alike.action
  cases alike.matched
  cases results
  rfl

/-- Where the calls for the spared keys are agreed on, treating a key comes to the same if it is
spared. -/
theorem treat_couples (acts : ∀ keyId, spared keyId → agreed (action.call keyId ""))
    (record : Key.Record) :
    (treat action record).Couples agreed (EntriesAlike spared) (treat action record) := by
  refine (action.apply_couples record).bind fun result last same => ?_
  have equal : spared record.keyId → result = last := fun spares => same (acts _ spares)
  -- Only a failure gives a notice, so the two go on differently where just one has failed.
  cases result with
  | ok applied =>
      cases last with
      | ok other =>
          refine .done _ _ ⟨rfl, fun spares => ?_⟩
          cases equal spares
          rfl
      | error cause =>
          exact .right _ _ _ fun _ => .done _ _ ⟨rfl, fun spares => nomatch equal spares⟩
  | error cause =>
      cases last with
      | ok other =>
          exact .left _ _ _ fun _ => .done _ _ ⟨rfl, fun spares => nomatch equal spares⟩
      | error other =>
          refine .left _ _ _ fun _ => .right _ _ _ fun _ => .done _ _ ⟨rfl, fun spares => ?_⟩
          cases equal spares
          rfl

theorem treatAll_couples (acts : ∀ keyId, spared keyId → agreed (action.call keyId ""))
    (records : List Key.Record) :
    (treatAll action records).Couples agreed (List.Forall₂ (EntriesAlike spared))
      (treatAll action records) := by
  induction records with
  | nil => exact .done _ _ .nil
  | cons record rest induction =>
      rw [treatAll]
      refine (treat_couples acts record).bind fun report other alike => ?_
      exact induction.bind fun reports others same => .done _ _ (.cons alike same)

theorem select_couples (listing : AgreesOnListing agreed) (ids : List String)
    (criteria : List Criterion) :
    (select ids criteria).Couples agreed Eq (select ids criteria) := by
  rw [select_eq]
  refine (Inventory.listKeys_couples listing).bind ?_
  rintro records _ rfl
  exact Errand.couples_pure rfl

theorem run_couples (listing : AgreesOnListing agreed)
    (acts : ∀ keyId, spared keyId → agreed (action.call keyId "")) (ids : List String)
    (criteria : List Criterion) :
    (run action ids criteria).Couples agreed (ReportsAlike spared) (run action ids criteria) := by
  rw [run]
  refine (select_couples listing ids criteria).bind ?_
  rintro selected _ rfl
  refine (Errand.couples_lift (Custody.couples_note _)).bind fun _ _ _ => ?_
  refine (Errand.couples_lift (treatAll_couples acts selected)).bind fun results others alike => ?_
  exact Errand.couples_pure ⟨rfl, rfl, alike⟩

/-- Two providers whose answers depend on the call alone, without its token, and differ in what
they answer to the action's call for one key at most, are asked the same calls in the same
order. The runs end in the same failure, or in reports that differ in the entry of that key at
most. -/
theorem failure_stays_with_its_key (first : World Question Question.Reply σ)
    (second : World Question Question.Reply τ)
    (answer other : (asked : Service.Call) → Except Error asked.Reply)
    (answers : Answers first answer) (others : Answers second other) (action : Action)
    (key : String)
    (apart : ∀ asked, (∀ token, asked ≠ action.call key token) → answer asked = other asked)
    (ids : List String) (criteria : List Criterion) (state : σ) (last : τ) :
    let ran := (run action ids criteria).attempt.run first state
    let again := (run action ids criteria).attempt.run second last
    asks ran.calls = asks again.calls ∧
      ResultsRelated (ReportsAlike fun keyId => keyId ≠ key) ran.value again.value := by
  have alike : Alike (fun asked => asked ≠ action.call key "") (fun _ _ => True) first second :=
    answers.alike others fun asked differs => apart asked fun token same =>
      differs (same ▸ action.withoutToken_call key token)
  have listing : AgreesOnListing fun asked => asked ≠ action.call key "" := by
    constructor <;> intro _ <;> cases action <;> exact nofun
  have acts : ∀ keyId, keyId ≠ key → action.call keyId "" ≠ action.call key "" :=
    fun keyId differs same => differs (by cases action <;> cases same <;> rfl)
  exact (run_couples listing acts ids criteria).holds alike trivial

/-- Answers as another provider does, except that one call fails, whatever its token. -/
def refusing (refused : Service.Call) (cause : Error)
    (answer : (asked : Service.Call) → Except Error asked.Reply) :
    (asked : Service.Call) → Except Error asked.Reply := fun asked =>
  if asked.withoutToken = refused then .error cause else answer asked

theorem tokenless_refusing (refused : Service.Call) (cause : Error)
    {answer : (asked : Service.Call) → Except Error asked.Reply} (tokenless : Tokenless answer) :
    Tokenless (refusing refused cause answer) where
  setRotation switch keyId token fresh := by
    rw [refusing, refusing, tokenless.setRotation switch keyId token fresh]
    rfl
  setKey switch keyId token fresh := by
    rw [refusing, refusing, tokenless.setKey switch keyId token fresh]
    rfl

theorem tokenless_catalog (tagged : List Service.TaggedKey) (details : List Key.Detail) :
    Tokenless (Inventory.catalog tagged details) where
  setRotation switch _ _ _ := by cases switch <;> rfl
  setKey switch _ _ _ := by cases switch <;> rfl

/-- Of three keys one cannot be disabled. Both runs ask to disable all three, and differ in what
they report on that one. -/
theorem refusal_of_second_among_three :
    let details : List Key.Detail := [{ keyId := "k1" }, { keyId := "k2" }, { keyId := "k3" }]
    let answer := Inventory.catalog [] details
    let other := refusing (.setKey .off "k2" "") (.transport "reset") answer
    let ran := (run .disableKey [] []).attempt.run (steadyWorld answer) ()
    let again := (run .disableKey [] []).attempt.run (numberingWorld other) 0
    (Answers (steadyWorld answer) answer ∧ Answers (numberingWorld other) other ∧
      ∀ asked, (∀ token, asked ≠ Action.disableKey.call "k2" token) →
        answer asked = other asked) ∧
    (asks ran.calls = asks again.calls ∧
      ResultsRelated (ReportsAlike fun keyId => keyId ≠ "k2") ran.value again.value) ∧
    again.value = .ok ⟨"disable_key", 3,
      [⟨"k1", .done, some .disabled⟩, ⟨"k2", .failed "transport error: reset", none⟩,
        ⟨"k3", .done, some .disabled⟩]⟩ := by
  intro details answer other ran again
  have answers : Answers (steadyWorld answer) answer :=
    ⟨tokenless_catalog [] details, fun _ _ => rfl⟩
  have others : Answers (numberingWorld other) other :=
    ⟨tokenless_refusing _ _ (tokenless_catalog [] details), fun _ _ => rfl⟩
  have apart : ∀ asked, (∀ token, asked ≠ Action.disableKey.call "k2" token) →
      answer asked = other asked := by
    intro asked differs
    refine (if_neg fun same => ?_).symm
    cases asked <;> cases same
    exact differs _ rfl
  exact ⟨⟨answers, others, apart⟩,
    failure_stays_with_its_key _ _ answer other answers others .disableKey "k2" apart [] [] () 0,
    by decide +kernel⟩

end Remediation

end KeyCustody
