import KeyCustody.Proofs.Inventory
import KeyCustody.Remediation
import Mathlib.Data.List.Forall2

namespace KeyCustody

/-! # The calls of a remediation

One key gets at most one call, which is the action's own, and none if the action does not
apply to it. The answer to that call settles what the action comes to. A run does this for
each selected record in turn. What an earlier key answered plays no part in what is asked for
a later one. -/

namespace Action

/-- Why an action does not apply to a key, if it does not. A key can always be switched. -/
def refusal : Action → Key.Record → Option String
  | .enableRotation, record => Rotation.enableIneligibility record
  | .disableRotation, record => Rotation.disableIneligibility record
  | .enableKey, _ => none
  | .disableKey, _ => none

def qualifies (action : Action) (record : Key.Record) : Bool := (action.refusal record).isNone

def call : Action → (keyId token : String) → Service.Call
  | .enableRotation, keyId, token => .setRotation .on keyId token
  | .disableRotation, keyId, token => .setRotation .off keyId token
  | .enableKey, keyId, token => .setKey .on keyId token
  | .disableKey, keyId, token => .setKey .off keyId token

def ActsOn (action : Action) (answered : Answered) (record : Key.Record) : Prop :=
  ∃ token, answered.question = action.call record.keyId token

/-- The calls for one record: its own one, or none. -/
inductive Applies (action : Action) (record : Key.Record) : List Answered → Prop where
  | refused (reason : String) (refuses : action.refusal record = some reason) :
      Applies action record []
  | asked (accepts : action.refusal record = none) (answered : Answered)
      (acts : action.ActsOn answered record) : Applies action record [answered]

theorem Applies.actsOn {action : Action} {record : Key.Record} {calls : List Answered}
    (applies : Applies action record calls) :
    List.Forall₂ action.ActsOn calls ([record].filter action.qualifies) := by
  cases applies with
  | refused reason refuses =>
      rw [List.filter_singleton, qualifies, refuses]
      exact .nil
  | asked accepts answered acts =>
      rw [List.filter_singleton, qualifies, accepts]
      exact .cons acts .nil

theorem exists_actsOn_of_mem {action : Action} {acts : List Answered}
    {records : List Key.Record} (acted : List.Forall₂ action.ActsOn acts records)
    {act : Answered} (member : act ∈ acts) : ∃ record ∈ records, action.ActsOn act record := by
  obtain ⟨sameLength, related⟩ := List.forall₂_iff_get.mp acted
  obtain ⟨index, rfl⟩ := List.get_of_mem member
  have bound : index < records.length := by rw [← sameLength]; exact index.isLt
  exact ⟨_, List.get_mem records ⟨index, bound⟩, related index index.isLt bound⟩

/-- What the reply to an action's call says of the key. -/
def applied : (action : Action) → {keyId token : String} →
    (action.call keyId token).Reply → Applied
  | .enableRotation, _, _, _ => .of .done
  | .disableRotation, _, _, _ => .of .done
  | .enableKey, _, _, (status : Service.KeyStatus) => ⟨.done, some (.ofCode status.state)⟩
  | .disableKey, _, _, (status : Service.KeyStatus) => ⟨.done, some (.ofCode status.state)⟩

/-- What an action makes of a failure. Turning rotation on reports it, the others hand it on. -/
def failing : Action → Error → Except Error Applied
  | .enableRotation, cause => .ok (.of (.failed cause.message))
  | _, cause => .error cause

/-- What an action comes to on one key, with the call that decides it. -/
inductive Settles (action : Action) (record : Key.Record) :
    List Answered → Except Error Applied → Prop where
  | refused (reason : String) (refuses : action.refusal record = some reason) :
      Settles action record [] (.ok (.of (.skipped (.ineligible reason))))
  | done (accepts : action.refusal record = none) (token : String)
      (reply : (action.call record.keyId token).Reply) :
      Settles action record [⟨action.call record.keyId token, .ok reply⟩]
        (.ok (action.applied reply))
  | unchanged (accepts : action.refusal record = none) (turnsOn : action = .enableRotation)
      (token : String) (cause : ProviderError) (bad : cause.isBadRequest) :
      Settles action record [⟨action.call record.keyId token, .error (.provider cause)⟩]
        (.ok (.of (.skipped (.alreadyApplied cause.detail))))
  | failed (accepts : action.refusal record = none) (token : String) (cause : Error)
      (other : action = .enableRotation →
        ∀ provided, cause = .provider provided → ¬provided.isBadRequest) :
      Settles action record [⟨action.call record.keyId token, .error cause⟩]
        (action.failing cause)

theorem enable_settles (record : Key.Record) :
    (Rotation.enable record).Ensures fun calls outcome =>
      Settles .enableRotation record calls (.ok (.of outcome)) := by
  rw [Rotation.enable]
  split
  · rename_i reason refuses
    exact fun _ => .refused reason refuses
  · rename_i unrefused
    have accepts : refusal .enableRotation record = none := unrefused
    simp only [Custody.ensures_bind, Custody.ensures_token, List.nil_append]
    refine fun token => Custody.ensures_call.mpr fun answer => ?_
    split
    · exact fun _ => .done accepts token ()
    · rename_i cause
      split
      · rename_i bad
        exact fun _ => .unchanged accepts rfl token cause bad
      · rename_i other
        refine fun _ => .failed accepts token (.provider cause) fun _ provided same => ?_
        cases same
        exact other
    · rename_i cause unprovided
      exact fun _ => .failed accepts token cause fun _ provided same =>
        absurd same (unprovided provided)

/-- An action other than turning rotation on hands on what its call comes to. -/
theorem settles_of_answer (action : Action) (record : Key.Record)
    (accepts : action.refusal record = none) (others : action ≠ .enableRotation)
    (token : String) (answer : Except Error (action.call record.keyId token).Reply) :
    Settles action record [⟨action.call record.keyId token, answer⟩]
      (answer.map action.applied) := by
  cases answer with
  | ok reply => exact .done accepts token reply
  | error cause =>
      have handsOn : action.failing cause = .error cause := by
        cases action with
        | enableRotation => exact absurd rfl others
        | disableRotation => rfl
        | enableKey => rfl
        | disableKey => rfl
      rw [Except.map, ← handsOn]
      exact .failed accepts token cause fun turnsOn => absurd turnsOn others

theorem disable_settles (record : Key.Record) :
    (Rotation.disable record).Ensures fun calls result =>
      Settles .disableRotation record calls (result.map Applied.of) := by
  rw [Rotation.disable]
  split
  · rename_i reason refuses
    exact fun _ => .refused reason refuses
  · rename_i accepts
    simp only [Errand.ensures_bind, Errand.ensures_lift, Custody.ensures_token,
      List.nil_append]
    refine fun token => Errand.ensures_call.mpr fun answer => ?_
    have settles :=
      settles_of_answer .disableRotation record accepts (by decide) token answer
    cases answer with
    | error cause => exact settles
    | ok done => exact fun _ => settles

/-- Switching a key is one call, and its answer is the result. -/
theorem switchKey_ensures {switch : Service.Switch} {action : Action} {record : Key.Record}
    {condition : List Answered → Except Error Service.KeyStatus → Prop}
    (holds : ∀ token answer, condition [⟨.setKey switch record.keyId token, answer⟩] answer) :
    (switchKey switch action record).Ensures condition := by
  simp only [switchKey, Errand.ensures_bind, Errand.ensures_lift, Custody.ensures_token,
    List.nil_append]
  refine fun token => Errand.ensures_call.mpr fun answer => ?_
  have asked := holds token answer
  cases answer with
  | error cause => exact asked
  | ok status => exact fun _ => asked

theorem apply_settles (action : Action) (record : Key.Record) :
    (action.apply record).Ensures (Settles action record) := by
  cases action with
  | enableRotation =>
      rw [apply, Errand.ensures_bind_pure, Errand.ensures_lift]
      exact enable_settles record
  | disableRotation =>
      rw [apply, Errand.ensures_bind_pure]
      exact disable_settles record
  | enableKey =>
      rw [apply, Errand.ensures_bind_pure]
      exact switchKey_ensures (settles_of_answer .enableKey record rfl (by decide))
  | disableKey =>
      rw [apply, Errand.ensures_bind_pure]
      exact switchKey_ensures (settles_of_answer .disableKey record rfl (by decide))

/-- An action asks for nothing but itself, and only where it applies. -/
theorem apply_ensures (action : Action) (record : Key.Record) :
    (action.apply record).Ensures fun calls _ => Applies action record calls := by
  refine (action.apply_settles record).mono fun calls result settles => ?_
  cases settles with
  | refused reason refuses => exact .refused reason refuses
  | done accepts token reply => exact .asked accepts _ ⟨token, rfl⟩
  | unchanged accepts turnsOn token cause bad => exact .asked accepts _ ⟨token, rfl⟩
  | failed accepts token cause other => exact .asked accepts _ ⟨token, rfl⟩

end Action

namespace Remediation

theorem treat_ensures (action : Action) (record : Key.Record) :
    (treat action record).Ensures fun calls report =>
      action.Applies record calls ∧ report.keyId = record.keyId := by
  rw [treat, Custody.ensures_bind]
  refine (action.apply_ensures record).mono fun calls result applies => ?_
  cases result with
  | ok applied =>
      rw [Custody.ensures_pure, List.append_nil]
      exact ⟨applies, rfl⟩
  | error cause =>
      simpa only [Custody.ensures_bind, Custody.ensures_note, Custody.ensures_pure,
        List.append_nil, and_true] using applies

theorem treatAll_ensures (action : Action) (records : List Key.Record) :
    (treatAll action records).Ensures fun calls reports =>
      List.Forall₂ action.ActsOn calls (records.filter action.qualifies) ∧
        reports.map KeyReport.keyId = records.map Key.Record.keyId := by
  induction records with
  | nil => exact ⟨.nil, rfl⟩
  | cons record rest induction =>
      rw [treatAll, Custody.ensures_bind]
      refine (treat_ensures action record).mono fun calls report treated => ?_
      rw [Custody.ensures_bind]
      refine induction.mono fun later reports treatedRest => ?_
      obtain ⟨applies, named⟩ := treated
      obtain ⟨acts, namedRest⟩ := treatedRest
      rw [Custody.ensures_pure, List.append_nil]
      constructor
      -- The calls of one record stand before those of the rest, as its own part of the
      -- filtered records does.
      · rw [← List.singleton_append, List.filter_append]
        exact List.rel_append applies.actsOn acts
      · rw [List.map_cons, List.map_cons, named, namedRest]

/-- Every key has exactly one of the three kinds of outcome. -/
theorem Report.outcomes_add_up (report : Report) :
    report.done + report.skipped + report.failed = report.results.length := by
  rw [done, skipped, failed]
  induction report.results with
  | nil => rfl
  | cons result rest induction =>
      have one : (if result.outcome.isDone then 1 else 0) +
          (if result.outcome.isSkipped then 1 else 0) +
          (if result.outcome.isFailed then 1 else 0) = 1 := by
        cases result.outcome <;> rfl
      rw [List.countP_cons, List.countP_cons, List.countP_cons, List.length_cons, ← induction]
      omega

/-- The record has one of the ids, if there are ids, and every criterion accepts it. -/
def Selects (ids : List String) (criteria : List Criterion) (record : Key.Record) : Prop :=
  (ids = [] ∨ record.keyId ∈ ids) ∧ ∀ criterion ∈ criteria, criterion.accepts record

instance (ids : List String) (criteria : List Criterion) (record : Key.Record) :
    Decidable (Selects ids criteria record) :=
  inferInstanceAs (Decidable (_ ∧ _))

theorem keep_eq_filter_selects (criteria : List Criterion) (records : List Key.Record) :
    Criterion.keep criteria records = records.filter fun record => Selects [] criteria record := by
  refine List.filter_congr fun record _ => ?_
  rw [Bool.eq_iff_iff, List.all_eq_true, decide_eq_true_iff]
  exact ⟨fun accepted => ⟨.inl rfl, accepted⟩, And.right⟩

theorem keep_filter_eq_filter_selects {ids : List String} (narrowed : ids ≠ [])
    (criteria : List Criterion) (records : List Key.Record) :
    Criterion.keep criteria (records.filter fun record => ids.contains record.keyId) =
      records.filter fun record => Selects ids criteria record := by
  rw [Criterion.keep, List.filter_filter]
  refine List.filter_congr fun record _ => ?_
  rw [Bool.eq_iff_iff, Bool.and_eq_true, List.all_eq_true, List.contains_iff_mem,
    decide_eq_true_iff, and_comm, Selects, or_iff_right narrowed]

/-- A selection is the listing with the records left out that are not selected. -/
theorem select_eq (ids : List String) (criteria : List Criterion) :
    select ids criteria = Inventory.listKeys >>= fun records =>
      pure (records.filter fun record => Selects ids criteria record) := by
  rw [select]
  split
  · rename_i all
    rw [List.isEmpty_iff.mp all]
    exact bind_congr fun records => congrArg pure (keep_eq_filter_selects criteria records)
  · rename_i narrowed
    rw [List.isEmpty_iff] at narrowed
    rw [Inventory.getKeys, bind_assoc]
    refine bind_congr fun records => ?_
    rw [pure_bind]
    exact congrArg pure (keep_filter_eq_filter_selects narrowed criteria records)

theorem select_ensures (ids : List String) (criteria : List Criterion) :
    (select ids criteria).Ensures fun calls result =>
      ∃ listed, Inventory.Lists calls listed ∧
        result = listed.map (List.filter fun record => Selects ids criteria record) := by
  rw [select]
  split
  · rename_i all
    rw [Errand.ensures_bind_pure, List.isEmpty_iff.mp all]
    refine Inventory.listKeys_ensures.mono fun calls listed lists => ⟨listed, lists, ?_⟩
    rw [funext (keep_eq_filter_selects criteria)]
  · rename_i narrowed
    rw [List.isEmpty_iff] at narrowed
    rw [Errand.ensures_bind_pure]
    refine (Inventory.getKeys_ensures ids).mono fun calls found listing => ?_
    obtain ⟨listed, lists, rfl⟩ := listing
    refine ⟨listed, lists, ?_⟩
    cases listed with
    | error cause => rfl
    | ok records => exact congrArg Except.ok (keep_filter_eq_filter_selects narrowed criteria _)

/-- What is left of a run once its tags are collected: it lists the keys, and treats those that are
selected among them. -/
inductive Runs (action : Action) (ids : List String) (criteria : List Criterion)
    (tags : Inventory.TagMap) : List Answered → Except Error Report → Prop where
  | unlisted (cause : Error) :
      Runs action ids criteria tags [⟨.listKeys Inventory.everySpec, .error cause⟩] (.error cause)
  | treated (details : List Key.Detail) (records selected : List Key.Record)
      (joined : records = Inventory.merge tags details)
      (selects : selected = records.filter fun record => Selects ids criteria record)
      (acts : List Answered) (reports : List KeyReport)
      (acted : List.Forall₂ action.ActsOn acts (selected.filter action.qualifies))
      (named : reports.map KeyReport.keyId = selected.map Key.Record.keyId) :
      Runs action ids criteria tags (⟨.listKeys Inventory.everySpec, .ok details⟩ :: acts)
        (.ok ⟨action.name, selected.length, reports⟩)

/-- Treats the records that are selected among those of an inventory. -/
def runOn (action : Action) (ids : List String) (criteria : List Criterion)
    (tags : Inventory.TagMap) : Errand Report := do
  let records ← Inventory.joinKeys tags
  let selected := records.filter fun record => Selects ids criteria record
  Custody.note .running
  let results ← treatAll action selected
  pure ⟨action.name, selected.length, results⟩

theorem run_eq (action : Action) (ids : List String) (criteria : List Criterion) :
    run action ids criteria = liftM Inventory.collectTags >>= runOn action ids criteria := by
  rw [run, select_eq, Inventory.listKeys_eq, bind_assoc, bind_assoc]
  refine bind_congr fun tags => bind_congr fun records => ?_
  rw [pure_bind]

theorem runOn_ensures (action : Action) (ids : List String) (criteria : List Criterion)
    (tags : Inventory.TagMap) :
    (runOn action ids criteria tags).Ensures (Runs action ids criteria tags) := by
  rw [runOn, Errand.ensures_bind]
  refine (Inventory.joinKeys_ensures tags).mono fun calls result joined => ?_
  obtain ⟨answer, rfl, rfl⟩ := joined
  cases answer with
  | error cause => exact .unlisted cause
  | ok details =>
      simp only [Except.map, Errand.ensures_bind, Errand.ensures_lift, Custody.ensures_note,
        Errand.ensures_pure, List.append_nil, List.nil_append]
      refine (treatAll_ensures action _).mono fun acts reports treated => ?_
      obtain ⟨acted, named⟩ := treated
      exact .treated details _ _ rfl rfl acts reports acted named

/-- A run asks for the tags first, and has them for what is left of it. -/
theorem run_after_tags (world : World Question Question.Reply σ) (state : σ) (action : Action)
    (ids : List String) (criteria : List Criterion) :
    let pages := (Inventory.collectTags.run world state).calls
    let ran := (run action ids criteria).attempt.run world state
    Inventory.PagesFrom 0 pages ∧ ∃ later, ran.calls = pages ++ later ∧
      Runs action ids criteria (Inventory.gathered pages) later ran.value := by
  intro pages ran
  obtain ⟨asked, collected⟩ := Inventory.collectTags_ensures.holds world state
  obtain ⟨later, calls, runs⟩ :=
    Errand.exists_later_calls (runOn_ensures action ids criteria) world state
  rw [← run_eq] at calls runs
  rw [collected] at runs
  exact ⟨asked, later, calls, runs⟩

/-- Whatever the provider answers, a run asks for the pages of tags up to the first answer that ends
the paging, and then once for the keys. Where the keys cannot be listed it ends there. Otherwise it
asks for its action once for each selected record to which the action applies, in the provider's
order, and reports on every selected record. -/
theorem run_asks_once_for_each_selected (world : World Question Question.Reply σ) (state : σ)
    (action : Action) (ids : List String) (criteria : List Criterion) :
    let pages := (Inventory.collectTags.run world state).calls
    let ran := (run action ids criteria).attempt.run world state
    Inventory.PagesFrom 0 pages ∧
    ∃ (answer : Except Error (List Key.Detail)) (acts : List Answered),
      ran.calls = pages ++ ⟨.listKeys Inventory.everySpec, answer⟩ :: acts ∧
      match answer with
      | .error cause => acts = [] ∧ ran.value = .error cause
      | .ok details =>
          ∃ (records selected : List Key.Record) (report : Report),
            records = Inventory.merge (Inventory.gathered pages) details ∧
            records.map Key.Record.keyId = details.map Key.Detail.keyId ∧
            selected = (records.filter fun record => Selects ids criteria record) ∧
            List.Forall₂ action.ActsOn acts (selected.filter action.qualifies) ∧
            (∀ act ∈ acts, ∃ record ∈ records,
              action.ActsOn act record ∧ Selects ids criteria record) ∧
            ran.value = .ok report ∧ report.action = action.name ∧
            report.results.map KeyReport.keyId = selected.map Key.Record.keyId ∧
            report.matched = selected.length ∧
            report.done + report.skipped + report.failed = report.matched := by
  intro pages ran
  obtain ⟨asked, later, calls, runs⟩ := run_after_tags world state action ids criteria
  refine ⟨asked, ?_⟩
  change ran.calls = pages ++ later at calls
  change Runs action ids criteria (Inventory.gathered pages) later ran.value at runs
  rw [calls]
  generalize ran.value = result at runs ⊢
  cases runs with
  | unlisted cause => exact ⟨.error cause, [], rfl, rfl, rfl⟩
  | treated details records selected joined selects acts reports acted named =>
      refine ⟨.ok details, acts, rfl, records, selected, _, joined, ?_, selects, acted, ?_, rfl,
        rfl, named, rfl, ?_⟩
      · rw [joined, Inventory.map_keyId_merge]
      · intro act member
        obtain ⟨record, chosen, actsOn⟩ := Action.exists_actsOn_of_mem acted member
        rw [selects, List.mem_filter, List.mem_filter, decide_eq_true_iff] at chosen
        exact ⟨record, chosen.1.1, actsOn, chosen.1.2⟩
      · rw [Report.outcomes_add_up, ← List.length_map KeyReport.keyId, named, List.length_map]

end Remediation

end KeyCustody
