import KeyCustody.Proofs.Cloud.Answers
import KeyCustody.Proofs.Remediation

namespace KeyCustody

/-! # From answers to outcomes

What becomes of a key depends on the class of the answer to its one request: a success, a
refusal as a bad request, any other refusal, or no whole answer. The body of a refusal gives
texts, and never moves an answer to another class. A run turns a failure that an action hands
on into the text that turning rotation on reports for it. -/

/-- The status of an answer that came whole. -/
def Http.Answer.status? : Http.Answer → Option Nat
  | .whole head _ => some head.status
  | .cut _ => none
  | .lost => none

namespace Action

def operation : Action → (keyId token : String) → Cloud.KeyService.Operation
  | .enableRotation, keyId, token => Cloud.KeyService.setRotation .on keyId token
  | .disableRotation, keyId, token => Cloud.KeyService.setRotation .off keyId token
  | .enableKey, keyId, token => Cloud.KeyService.setKey .on keyId token
  | .disableKey, keyId, token => Cloud.KeyService.setKey .off keyId token

/-- The reply that is read from the body of a success. -/
def reads : (action : Action) → {keyId token : String} → Bytes →
    Except Error (action.call keyId token).Reply
  | .enableRotation, _, _, _ => .ok ()
  | .disableRotation, _, _, _ => .ok ()
  | .enableKey, _, _, body => Cloud.KeyService.decode Service.keyStatusReader body
  | .disableKey, _, _, body => Cloud.KeyService.decode Service.keyStatusReader body

end Action

namespace Cloud

open KeyService (Performs prepare refused requestId readAnswer)

variable {account : Account} {action : Action} {record : Key.Record} {url : Url}
  {answer : Http.Answer} {cause : ProviderError}

/-- The failure that an answer without success is. -/
inductive Refuses (url : Url) : Http.Answer → ProviderError → Prop where
  | whole (head : Http.Head) (body : Bytes) (refusing : 300 ≤ head.status) :
      Refuses url (.whole head body) (refused head.status (requestId head) body)
  | cut (head : Http.Head) :
      Refuses url (.cut head)
        { ProviderError.unanswered "error decoding response body" with
          requestId := requestId head }
  | lost :
      Refuses url .lost
        (.unanswered ("error sending request for url (" ++ url.text ++ ")"))

/-- Whatever a refusal says, its status is that of the answer. -/
theorem Refuses.status (refuses : Refuses url answer cause) : cause.status = answer.status? := by
  cases refuses <;> rfl

theorem refuses_of_readAnswer (failed : readAnswer url answer = .error cause) :
    Refuses url answer cause := by
  cases answer with
  | lost =>
      cases failed
      exact .lost
  | cut head =>
      cases failed
      exact .cut head
  | whole head body =>
      rw [readAnswer] at failed
      split at failed
      · rename_i refusing
        cases failed
        exact .whole head body refusing
      · cases failed

theorem accepted_of_readAnswer {body : Bytes} (succeeded : readAnswer url answer = .ok body) :
    ∃ head, answer = .whole head body ∧ head.status < 300 := by
  cases answer with
  | lost => cases succeeded
  | cut head => cases succeeded
  | whole head received =>
      rw [readAnswer] at succeeded
      split at succeeded
      · cases succeeded
      · rename_i accepted
        cases succeeded
        exact ⟨head, rfl, Nat.lt_of_not_le accepted⟩

/-- What the answer to an action's request makes of the action. Rotation does not look at the body
of a success. The switch of a key takes the key's state from it, or fails if it tells none. -/
inductive Decides (action : Action) (url : Url) : Http.Answer → Except Error Applied → Prop where
  | rotated (head : Http.Head) (body : Bytes) (accepted : head.status < 300)
      (rotates : action = .enableRotation ∨ action = .disableRotation) :
      Decides action url (.whole head body) (.ok ⟨.done, none⟩)
  | switched (head : Http.Head) (body : Bytes) (accepted : head.status < 300)
      (switches : action = .enableKey ∨ action = .disableKey) (status : Service.KeyStatus)
      (tells : Service.TellsStatus body status) :
      Decides action url (.whole head body) (.ok ⟨.done, some (.ofCode status.state)⟩)
  | garbled (head : Http.Head) (body : Bytes) (accepted : head.status < 300)
      (switches : action = .enableKey ∨ action = .disableKey)
      (silent : ¬ ∃ status, Service.TellsStatus body status) (fault : Json.Fault) :
      Decides action url (.whole head body) (.error (.unreadable fault))
  | unchanged (answer : Http.Answer) (cause : ProviderError) (refuses : Refuses url answer cause)
      (turnsOn : action = .enableRotation) (bad : answer.status? = some 400) :
      Decides action url answer (.ok ⟨.skipped (.alreadyApplied cause.detail), none⟩)
  | failed (answer : Http.Answer) (cause : ProviderError) (refuses : Refuses url answer cause)
      (kept : cause.status = answer.status?)
      (other : action = .enableRotation → answer.status? ≠ some 400) :
      Decides action url answer (action.failing (.provider cause))

/-- What an action comes to on one key, with the request that decides it. -/
inductive Treats (account : Account) (action : Action) (record : Key.Record) :
    List Sent → Except Error Applied → Prop where
  | ineligible (reason : String) (refuses : action.refusal record = some reason) :
      Treats account action record [] (.ok ⟨.skipped (.ineligible reason), none⟩)
  | unsent (accepts : action.refusal record = none) (token date : String) (cause : Error)
      (unprepared :
        prepare account date (action.operation record.keyId token) = .error cause) :
      Treats account action record [] (action.failing cause)
  | answered (accepts : action.refusal record = none) (token date : String)
      (request : Http.Request)
      (prepared : prepare account date (action.operation record.keyId token) = .ok request)
      (answer : Http.Answer) (result : Except Error Applied)
      (decides : Decides action request.url answer result) :
      Treats account action record [⟨request, answer⟩] result

/-- How the one request of a call answers it, if that request could be made. -/
inductive Replies (account : Account) (action : Action) (keyId token : String) :
    List Sent → Except Error (action.call keyId token).Reply → Prop where
  | unsent (date : String) (cause : Error)
      (unprepared : prepare account date (action.operation keyId token) = .error cause) :
      Replies account action keyId token [] (.error cause)
  | refused (date : String) (request : Http.Request)
      (prepared : prepare account date (action.operation keyId token) = .ok request)
      (answer : Http.Answer) (cause : ProviderError)
      (refuses : Refuses request.url answer cause) :
      Replies account action keyId token [⟨request, answer⟩] (.error (.provider cause))
  | accepted (date : String) (request : Http.Request)
      (prepared : prepare account date (action.operation keyId token) = .ok request)
      (head : Http.Head) (body : Bytes) (accepted : head.status < 300)
      (reply : Except Error (action.call keyId token).Reply)
      (reads : action.reads body = reply) :
      Replies account action keyId token [⟨request, .whole head body⟩] reply

theorem replies_of_performs {keyId token : String} {sent : List Sent}
    {received : Except Error Bytes}
    (performs : Performs account (action.operation keyId token) sent received) :
    Replies account action keyId token sent (received.bind action.reads) := by
  cases performs with
  | unsent date cause unprepared => exact .unsent date cause unprepared
  | sent date request prepared answer =>
      cases read : readAnswer request.url answer with
      | error cause =>
          exact .refused date request prepared answer cause (refuses_of_readAnswer read)
      | ok body =>
          obtain ⟨head, rfl, accepted⟩ := accepted_of_readAnswer read
          exact .accepted date request prepared head body accepted _ rfl

theorem answerCall_ensures (account : Account) (action : Action) (keyId token : String) :
    Wire.Ensures (answerCall account (action.call keyId token))
      (Replies account action keyId token) := by
  have performed : Wire.Ensures (answerCall account (action.call keyId token))
      fun sent reply => ∃ received,
        Performs account (action.operation keyId token) sent received ∧
          reply = received.bind action.reads := by
    cases action with
    | enableRotation => exact KeyService.tell_ensures account _
    | disableRotation => exact KeyService.tell_ensures account _
    | enableKey => exact KeyService.ask_ensures account _ _
    | disableKey => exact KeyService.ask_ensures account _ _
  refine performed.mono ?_
  rintro sent reply ⟨received, performs, rfl⟩
  exact replies_of_performs performs

theorem decides_of_switched {body : Bytes} {head : Http.Head} (accepted : head.status < 300)
    (switches : action = .enableKey ∨ action = .disableKey) :
    Decides action url (.whole head body)
      ((KeyService.decode Service.keyStatusReader body).map fun status =>
        ⟨.done, some (.ofCode status.state)⟩) := by
  rw [KeyService.decode]
  cases reads : Service.keyStatusReader.run body with
  | ok status =>
      have tells := Service.run_keyStatusReader_eq_ok_iff.mp reads
      exact .switched head body accepted switches status tells
  | error fault =>
      refine .garbled head body accepted switches ?_ fault
      intro told
      obtain ⟨status, tells⟩ := told
      rw [Service.run_keyStatusReader_eq_ok_iff.mpr tells] at reads
      cases reads

theorem decides_of_accepted {keyId token : String} {body : Bytes} {head : Http.Head}
    (accepted : head.status < 300) {reply : Except Error (action.call keyId token).Reply}
    (reads : action.reads body = reply) :
    Decides action url (.whole head body) (reply.map action.applied) := by
  subst reads
  cases action with
  | enableRotation => exact .rotated head body accepted (.inl rfl)
  | disableRotation => exact .rotated head body accepted (.inr rfl)
  | enableKey => exact decides_of_switched accepted (.inl rfl)
  | disableKey => exact decides_of_switched accepted (.inr rfl)

/-- Only a reply that has to be read can fail to be read. -/
theorem failing_of_reads {keyId token : String} {body : Bytes} {cause : Error}
    (reads : action.reads body =
      (.error cause : Except Error (action.call keyId token).Reply)) :
    action.failing cause = .error cause := by
  cases action with
  | enableRotation => cases reads
  | disableRotation => rfl
  | enableKey => rfl
  | disableKey => rfl

theorem replies_of_carries {keyId token : String}
    {reply : Except Error (action.call keyId token).Reply} {carried : List (List Sent)}
    (carries : List.Forall₂ (Carries account) [⟨action.call keyId token, reply⟩] carried) :
    Replies account action keyId token carried.flatten reply := by
  obtain _ | ⟨carries, ⟨⟩⟩ := carries
  obtain ⟨exchanges, gives, rfl⟩ := carries
  rw [List.flatten_singleton]
  exact Dialogue.Ensures.of_gives (answerCall_ensures account action keyId token) gives

theorem treats_of_settles {calls : List Answered} {carried : List (List Sent)}
    {result : Except Error Applied} (settles : action.Settles record calls result)
    (carries : List.Forall₂ (Carries account) calls carried) :
    Treats account action record carried.flatten result := by
  cases settles with
  | refused reason refuses =>
      cases carries
      exact .ineligible reason refuses
  | done accepts token reply =>
      have replies := replies_of_carries carries
      generalize carried.flatten = sent at replies ⊢
      cases replies with
      | accepted date request prepared head body accepted reply reads =>
          exact .answered accepts token date request prepared _ _
            (decides_of_accepted accepted reads)
  | unchanged accepts turnsOn token cause bad =>
      have replies := replies_of_carries carries
      have status : cause.status = some 400 := beq_iff_eq.mp bad
      generalize carried.flatten = sent at replies ⊢
      -- Only an answer has a status, so the request was made and then refused.
      cases replies with
      | unsent date cause unprepared =>
          rw [KeyService.status_of_prepare_error unprepared] at status
          cases status
      | refused date request prepared answer cause refuses =>
          refine .answered accepts token date request prepared answer _ ?_
          exact .unchanged answer cause refuses turnsOn (refuses.status ▸ status)
      | accepted date request prepared head body accepted reply reads =>
          subst turnsOn
          cases reads
  | failed accepts token cause other =>
      have replies := replies_of_carries carries
      generalize carried.flatten = sent at replies ⊢
      cases replies with
      | unsent date cause unprepared => exact .unsent accepts token date cause unprepared
      | refused date request prepared answer cause refuses =>
          refine .answered accepts token date request prepared answer _ ?_
          refine .failed answer cause refuses refuses.status fun turnsOn bad => ?_
          exact other turnsOn cause rfl (beq_iff_eq.mpr (refuses.status.trans bad))
      | accepted date request prepared head body accepted reply reads =>
          rw [failing_of_reads reads]
          exact .answered accepts token date request prepared _ _
            (decides_of_accepted accepted reads)

theorem apply_ensures (account : Account) (action : Action) (record : Key.Record) :
    Wire.Ensures (connect account (action.apply record).attempt)
      (Treats account action record) := by
  refine (connect_ensures (action.apply_settles record) account).mono ?_
  rintro sent result ⟨calls, carried, settles, carries, rfl⟩
  exact treats_of_settles settles carries

/-- Turning rotation on has an outcome on every key, whatever is answered. -/
theorem Treats.exists_applied {sent : List Sent} {result : Except Error Applied}
    (treats : Treats account .enableRotation record sent result) :
    ∃ applied, result = .ok applied := by
  cases treats with
  | ineligible reason refuses => exact ⟨_, rfl⟩
  | unsent accepts token date cause unprepared => exact ⟨_, rfl⟩
  | answered accepts token date request prepared answer result decides =>
      cases decides with
      | rotated head body accepted rotates => exact ⟨_, rfl⟩
      | switched head body accepted switches status tells => exact ⟨_, rfl⟩
      | garbled head body accepted switches silent fault =>
          exact absurd switches (by decide)
      | unchanged answer cause refuses turnsOn bad => exact ⟨_, rfl⟩
      | failed answer cause refuses kept other => exact ⟨_, rfl⟩

/-- A key with the requests made for it and what they came to. -/
structure Treatment where
  record : Key.Record
  sent : List Sent
  result : Except Error Applied

/-- What is reported of a key. A failure that was handed on is told by its message. -/
def Treatment.report (treatment : Treatment) : Remediation.KeyReport :=
  match treatment.result with
  | .ok applied => ⟨treatment.record.keyId, applied.outcome, applied.state⟩
  | .error cause => ⟨treatment.record.keyId, .failed cause.message, none⟩

theorem treat_ensures (account : Account) (action : Action) (record : Key.Record) :
    Wire.Ensures (connect account (Remediation.treat action record)) fun sent report =>
      ∃ result, Treats account action record sent result ∧
        report = Treatment.report ⟨record, sent, result⟩ := by
  rw [Remediation.treat, connect_bind, Wire.ensures_bind]
  refine (apply_ensures account action record).mono fun sent result treats => ?_
  cases result with
  | ok applied =>
      rw [connect_pure, Wire.ensures_pure, List.append_nil]
      exact ⟨.ok applied, treats, rfl⟩
  | error cause =>
      rw [connect_bind, Wire.ensures_bind, ensures_connect_note, connect_pure, Wire.ensures_pure,
        List.append_nil, List.append_nil]
      exact ⟨.error cause, treats, rfl⟩

theorem treatAll_ensures (account : Account) (action : Action) (records : List Key.Record) :
    Wire.Ensures (connect account (Remediation.treatAll action records)) fun sent reports =>
      ∃ treatments : List Treatment,
        (∀ treatment ∈ treatments,
          Treats account action treatment.record treatment.sent treatment.result) ∧
        treatments.map Treatment.record = records ∧
        sent = treatments.flatMap Treatment.sent ∧
        reports = treatments.map Treatment.report := by
  induction records with
  | nil =>
      rw [Remediation.treatAll, connect_pure, Wire.ensures_pure]
      exact ⟨[], List.forall_mem_nil _, rfl, rfl, rfl⟩
  | cons record rest induction =>
      rw [Remediation.treatAll, connect_bind, Wire.ensures_bind]
      refine (treat_ensures account action record).mono fun sent report treated => ?_
      rw [connect_bind, Wire.ensures_bind]
      refine induction.mono fun later reports treatedRest => ?_
      obtain ⟨result, treats, rfl⟩ := treated
      obtain ⟨treatments, all, named, rfl, rfl⟩ := treatedRest
      rw [connect_pure, Wire.ensures_pure, List.append_nil]
      refine ⟨⟨record, sent, result⟩ :: treatments, List.forall_mem_cons.mpr ⟨treats, all⟩,
        ?_, rfl, rfl⟩
      rw [List.map_cons, named]

/-- What a run does once its keys are selected, or could not be. -/
def finish (action : Action) : Except Error (List Key.Record) →
    Custody (Except Error Remediation.Report)
  | .error cause => pure (.error cause)
  | .ok selected => do
      Custody.note .running
      let reports ← Remediation.treatAll action selected
      pure (.ok ⟨action.name, selected.length, reports⟩)

theorem attempt_run (action : Action) (ids : List String) (criteria : List Criterion) :
    (Remediation.run action ids criteria).attempt =
      (Remediation.select ids criteria).attempt >>= finish action := by
  rw [Remediation.run, Errand.attempt, ExceptT.run_bind]
  refine bind_congr fun chosen => ?_
  cases chosen with
  | ok selected =>
      change ExceptT.run (ExceptT.lift (Custody.note .running) >>= fun _ =>
        ExceptT.lift (Remediation.treatAll action selected) >>= fun reports =>
          pure (Remediation.Report.mk action.name selected.length reports)) = _
      simp only [ExceptT.run_bind_lift, ExceptT.run_pure, finish]
  | error cause => rfl

/-- A run ends where no keys could be selected. Otherwise each selected key is treated, and
the report tells of all of them. -/
inductive Finishes (account : Account) (action : Action) :
    Except Error (List Key.Record) → List Sent → Except Error Remediation.Report → Prop where
  | unselected (cause : Error) : Finishes account action (.error cause) [] (.error cause)
  | treated (selected : List Key.Record) (treatments : List Treatment)
      (treats : ∀ treatment ∈ treatments,
        Treats account action treatment.record treatment.sent treatment.result)
      (each : treatments.map Treatment.record = selected) :
      Finishes account action (.ok selected) (treatments.flatMap Treatment.sent)
        (.ok ⟨action.name, selected.length, treatments.map Treatment.report⟩)

theorem finish_ensures (account : Account) (action : Action)
    (chosen : Except Error (List Key.Record)) :
    Wire.Ensures (connect account (finish action chosen)) (Finishes account action chosen) := by
  cases chosen with
  | error cause => exact .unselected cause
  | ok selected =>
      rw [finish, connect_bind, Wire.ensures_bind, ensures_connect_note, connect_bind,
        Wire.ensures_bind]
      refine (treatAll_ensures account action selected).mono fun sent reports treated => ?_
      obtain ⟨treatments, treats, each, rfl, rfl⟩ := treated
      rw [connect_pure, Wire.ensures_pure, List.append_nil]
      exact .treated selected treatments treats each

/-- Every action comes to what the answer to its own request decides. A run does this for each
key that it selects, and where a failure was handed on it reports what turning rotation on
would have reported for that failure. -/
theorem outcomes_follow_answers (world : World Wire.Question Wire.Question.Reply σ) (state : σ)
    (account : Account) (action : Action) :
    (∀ record,
      let applied := (connect account (action.apply record).attempt).run world state
      Treats account action record (requestsOf applied.exchanges) applied.value ∧
      (action = .enableRotation → ∃ done, applied.value = .ok done)) ∧
    (∀ ids criteria,
      let chosen := (connect account (Remediation.select ids criteria).attempt).run world state
      let ran := (connect account (Remediation.run action ids criteria).attempt).run world state
      ∃ sent, requestsOf ran.exchanges = requestsOf chosen.exchanges ++ sent ∧
        Finishes account action chosen.value sent ran.value) ∧
    ∀ record sent cause,
      Treatment.report ⟨record, sent, action.failing cause⟩ =
        Treatment.report ⟨record, sent, Action.failing .enableRotation cause⟩ := by
  refine ⟨fun record => ?_, fun ids criteria => ?_, fun record sent cause => ?_⟩
  · have treats := (apply_ensures account action record).holds world state
    refine ⟨treats, fun turnsOn => ?_⟩
    subst turnsOn
    exact treats.exists_applied
  · rw [attempt_run, connect_bind, Dialogue.bind_eq, Dialogue.run_bind]
    intro chosen ran
    exact ⟨_, requestsOf_append _ _,
      (finish_ensures account action chosen.value).holds world chosen.state⟩
  · cases action with
    | enableRotation => rfl
    | disableRotation => rfl
    | enableKey => rfl
    | disableKey => rfl

end Cloud

end KeyCustody
