import KeyCustody.Cloud.Gateway
import KeyCustody.Proofs.Transcript
import Mathlib.Data.List.Forall2

namespace KeyCustody

/-! # Requests behind calls

A translated dialogue has an exchange of the first kind for each stretch of exchanges of the
second kind that answered it. So what a program in calls ensures, it still ensures when every
call is answered by requests. -/

namespace Dialogue

variable {Q P : Type} {R : Q → Type} {S : P → Type} {α β σ : Type}

/-- Some replies lead to the exchanges and the value. -/
inductive Gives : Dialogue Q R α → List (Exchange Q R) → α → Prop where
  | done (value : α) : Gives (.done value) [] value
  | ask (question : Q) (next : R question → Dialogue Q R α) (reply : R question)
      (rest : List (Exchange Q R)) (value : α) (gives : Gives (next reply) rest value) :
      Gives (.ask question next) (⟨question, reply⟩ :: rest) value

theorem ensures_gives (dialogue : Dialogue Q R α) : dialogue.Ensures dialogue.Gives := by
  induction dialogue with
  | done value => exact .done value
  | ask question next induction =>
      intro reply
      exact (induction reply).mono fun rest value => .ask question next reply rest value

theorem Ensures.of_gives {dialogue : Dialogue Q R α} {condition : List (Exchange Q R) → α → Prop}
    (ensured : dialogue.Ensures condition) {exchanges : List (Exchange Q R)} {value : α}
    (gives : dialogue.Gives exchanges value) : condition exchanges value := by
  induction gives generalizing condition with
  | done value => exact ensured
  | ask question next reply rest value gives induction => exact induction (ensured reply)

theorem translate_bind (answer : (question : Q) → Dialogue P S (R question))
    (first : Dialogue Q R α) (next : α → Dialogue Q R β) :
    (first.bind next).translate answer =
      (first.translate answer).bind fun value => (next value).translate answer := by
  induction first with
  | done value => rfl
  | ask question rest induction => simp only [bind, translate, bind_assoc, induction]

/-- An exchange and the exchanges that answered its question. -/
def Answers (answer : (question : Q) → Dialogue P S (R question)) (exchange : Exchange Q R)
    (part : List (Exchange P S)) : Prop :=
  (answer exchange.question).Gives part exchange.reply

/-- What a dialogue ensures, its translation ensures of the exchanges that were answered. -/
theorem Ensures.translate {dialogue : Dialogue Q R α}
    {condition : List (Exchange Q R) → α → Prop} (ensured : dialogue.Ensures condition)
    (answer : (question : Q) → Dialogue P S (R question)) :
    (dialogue.translate answer).Ensures fun exchanges value =>
      ∃ answered parts, condition answered value ∧
        List.Forall₂ (Answers answer) answered parts ∧ exchanges = parts.flatten := by
  induction dialogue generalizing condition with
  | done value => exact ⟨[], [], ensured, .nil, rfl⟩
  | ask question next induction =>
      rw [Dialogue.translate, ensures_bind]
      refine (ensures_gives (answer question)).mono fun part reply gives => ?_
      refine (induction reply (ensured reply)).mono fun rest value translated => ?_
      obtain ⟨answered, parts, holds, related, rfl⟩ := translated
      exact ⟨_, part :: parts, holds, .cons gives related, rfl⟩

end Dialogue

namespace Cloud

/-- A request with its answer. -/
abbrev Sent := Exchange Http.Request fun _ => Http.Answer

def sent? : Exchange Wire.Question Wire.Question.Reply → Option Sent
  | ⟨.send request, answer⟩ => some ⟨request, answer⟩
  | ⟨.host _, _⟩ => none

/-- The requests among exchanges, each with its answer. -/
def requestsOf (exchanges : List (Exchange Wire.Question Wire.Question.Reply)) : List Sent :=
  exchanges.filterMap sent?

theorem requestsOf_append (before after : List (Exchange Wire.Question Wire.Question.Reply)) :
    requestsOf (before ++ after) = requestsOf before ++ requestsOf after :=
  List.filterMap_append

namespace Wire

/-- Whatever is answered, the requests and the value meet the condition. -/
def Ensures (program : Wire α) (condition : List Sent → α → Prop) : Prop :=
  Dialogue.Ensures program fun exchanges value => condition (requestsOf exchanges) value

theorem Ensures.mono {program : Wire α} {strong weak : List Sent → α → Prop}
    (ensured : Ensures program strong)
    (implies : ∀ sent value, strong sent value → weak sent value) : Ensures program weak :=
  Dialogue.Ensures.mono ensured fun exchanges => implies (requestsOf exchanges)

theorem Ensures.holds {program : Wire α} {condition : List Sent → α → Prop}
    (ensured : Ensures program condition) (world : World Wire.Question Wire.Question.Reply σ)
    (state : σ) :
    condition (requestsOf (Dialogue.run world program state).exchanges)
      (Dialogue.run world program state).value :=
  Dialogue.Ensures.holds ensured world state

theorem ensures_bind (first : Wire α) (next : α → Wire β) {condition : List Sent → β → Prop} :
    Ensures (first >>= next) condition ↔
      Ensures first fun before value =>
        Ensures (next value) fun after last => condition (before ++ after) last := by
  simp only [Ensures, Dialogue.bind_eq, Dialogue.ensures_bind, requestsOf_append]

theorem ensures_map (f : α → β) (program : Wire α) {condition : List Sent → β → Prop} :
    Ensures (f <$> program) condition ↔
      Ensures program fun sent value => condition sent (f value) := by
  rw [map_eq_pure_bind, ensures_bind]
  refine ⟨fun ensured => ensured.mono fun sent value holds => ?_,
    fun ensured => ensured.mono fun sent value holds => ?_⟩
  · rw [← List.append_nil sent]
    exact holds
  · change condition (sent ++ []) (f value)
    rwa [List.append_nil]

@[simp] theorem ensures_pure (value : α) {condition : List Sent → α → Prop} :
    Ensures (pure value) condition ↔ condition [] value := Iff.rfl

theorem ensures_host (request : Ambient) {condition : List Sent → request.Reply → Prop} :
    Ensures (host request) condition ↔ ∀ reply, condition [] reply := Iff.rfl

end Wire

/-- A call and the requests that answered it. -/
def Carries (account : Account) (answered : Answered) (sent : List Sent) : Prop :=
  ∃ exchanges, (answerCall account answered.question).Gives exchanges answered.reply ∧
    sent = requestsOf exchanges

/-- What is asked of the host is not carried by requests. -/
theorem requestsOf_of_answers_host {account : Account} {request : Ambient}
    {reply : request.Reply} {part : List (Exchange Wire.Question Wire.Question.Reply)}
    (answers : Dialogue.Answers (answerQuestion account) ⟨.host request, reply⟩ part) :
    requestsOf part = [] := by
  have silent : Wire.Ensures (Wire.host request) fun sent _ => sent = [] := fun _ => rfl
  exact Dialogue.Ensures.of_gives silent answers

theorem carries_of_answers {account : Account}
    {answered : List (Exchange Question Question.Reply)}
    {parts : List (List (Exchange Wire.Question Wire.Question.Reply))}
    (related : List.Forall₂ (Dialogue.Answers (answerQuestion account)) answered parts) :
    ∃ carried, List.Forall₂ (Carries account) (callsOf answered) carried ∧
      requestsOf parts.flatten = carried.flatten := by
  induction related with
  | nil => exact ⟨[], .nil, rfl⟩
  | @cons exchange part others rest answers related induction =>
      obtain ⟨carried, carries, sent⟩ := induction
      rw [List.flatten_cons, requestsOf_append, sent]
      obtain ⟨question, reply⟩ := exchange
      cases question with
      | call asked =>
          exact ⟨requestsOf part :: carried, .cons ⟨part, answers, rfl⟩ carries, rfl⟩
      | host request =>
          rw [requestsOf_of_answers_host answers]
          exact ⟨carried, carries, rfl⟩

/-- What a program ensures of its calls, it ensures of the calls that its requests carry. -/
theorem connect_ensures {program : Custody α} {condition : List Answered → α → Prop}
    (ensured : program.Ensures condition) (account : Account) :
    Wire.Ensures (connect account program) fun sent value =>
      ∃ calls carried, condition calls value ∧ List.Forall₂ (Carries account) calls carried ∧
        sent = carried.flatten := by
  refine (Dialogue.Ensures.translate ensured (answerQuestion account)).mono ?_
  rintro exchanges value ⟨answered, parts, holds, related, rfl⟩
  obtain ⟨carried, carries, sent⟩ := carries_of_answers related
  exact ⟨callsOf answered, carried, holds, carries, sent⟩

theorem connect_bind (account : Account) (first : Custody α) (next : α → Custody β) :
    connect account (first >>= next) =
      connect account first >>= fun value => connect account (next value) :=
  Dialogue.translate_bind (answerQuestion account) first next

@[simp] theorem connect_pure (account : Account) (value : α) :
    connect account (pure value) = pure value := rfl

@[simp] theorem ensures_connect_note (account : Account) (notice : Notice)
    {condition : List Sent → Unit → Prop} :
    Wire.Ensures (connect account (Custody.note notice)) condition ↔ condition [] () :=
  ⟨fun ensured => ensured (), fun holds _ => holds⟩

namespace KeyService

theorem hostAndPort?_anonymous (url : Url) : (anonymous url).hostAndPort? = url.hostAndPort? := by
  obtain ⟨scheme, authority, path, query, fragment⟩ := url
  cases authority <;> rfl

/-- The headers are listed once for the signature and once for the request, and the lists agree. -/
theorem sentHeaders_eq_signedHeaders {account : Account} {url : Url} {host date : String}
    (place : url.hostAndPort? = some host) :
    sentHeaders account (anonymous url) date = signedHeaders account host date := by
  rw [sentHeaders, hostAndPort?_anonymous, place]
  rfl

/-- The request of an operation, if it could be made, and what is read from its answer. -/
inductive Performs (account : Account) (operation : Operation) :
    List Sent → Except Error Bytes → Prop where
  | unsent (date : String) (cause : Error)
      (unprepared : prepare account date operation = .error cause) :
      Performs account operation [] (.error cause)
  | sent (date : String) (request : Http.Request)
      (prepared : prepare account date operation = .ok request) (answer : Http.Answer) :
      Performs account operation [⟨request, answer⟩]
        ((readAnswer request.url answer).mapError .provider)

theorem perform_ensures (account : Account) (operation : Operation) :
    Wire.Ensures (perform account operation) (Performs account operation) := by
  rw [perform, Wire.ensures_bind, Wire.ensures_host]
  intro now
  split
  · rename_i cause unprepared
    exact .unsent _ cause unprepared
  · rename_i request prepared
    exact fun answer => .sent _ request prepared answer

/-- A request that cannot be made has no status. -/
theorem status_of_prepare_error {account : Account} {date : String} {operation : Operation}
    {cause : ProviderError}
    (unprepared : prepare account date operation = .error (.provider cause)) :
    cause.status = none := by
  simp only [prepare, unanswered] at unprepared
  split at unprepared
  · cases unprepared
  · split at unprepared
    · cases unprepared
    · split at unprepared
      · cases unprepared
        rfl
      · split at unprepared
        · cases unprepared
          rfl
        · cases unprepared

theorem ask_ensures (account : Account) (operation : Operation) (read : Json.Reader α) :
    Wire.Ensures (ask account operation read) fun sent reply =>
      ∃ body, Performs account operation sent body ∧ reply = body.bind (decode read) := by
  rw [ask, ← map_eq_pure_bind, Wire.ensures_map]
  exact (perform_ensures account operation).mono fun sent body performs => ⟨body, performs, rfl⟩

/-- A request that can be made is sent, and the world answers it. -/
theorem requestsOf_run_ask {account : Account} {operation : Operation} {read : Json.Reader α}
    (world : World Wire.Question Wire.Question.Reply σ) (state : σ) {request : Http.Request}
    (prepared : prepare account
      (Calendar.timestamp (Instant.seconds (world.reply (.host .now) state).1)) operation =
        .ok request) :
    requestsOf ((ask account operation read).run world state).exchanges =
      [⟨request, (world.reply (.send request) (world.reply (.host .now) state).2).1⟩] := by
  simp only [ask, perform, Dialogue.bind_eq, Dialogue.run_bind, Wire.host,
    Dialogue.question, Dialogue.run, prepared]
  rfl

/-- What an operation gives where its one request is answered by a body. -/
theorem value_of_ask {account : Account} {operation : Operation} {read : Json.Reader α}
    (world : World Wire.Question Wire.Question.Reply σ) (state : σ) {request : Http.Request}
    {head : Http.Head} {body : Bytes} (accepted : head.status < 300)
    (answered : requestsOf ((ask account operation read).run world state).exchanges =
      [⟨request, .whole head body⟩]) :
    ((ask account operation read).run world state).value = decode read body := by
  obtain ⟨received, performs, reply⟩ := (ask_ensures account operation read).holds world state
  rw [reply]
  rw [answered] at performs
  cases performs with
  | sent date request prepared answer =>
      have received : readAnswer request.url (.whole head body) = .ok body :=
        if_neg (Nat.not_le_of_lt accepted)
      rw [received]
      rfl

/-- A reply that is what a body tells, or an error where the body tells nothing. -/
structure Told (reply : Except Error α) (tells : α → Prop) : Prop where
  whole : ∀ value, reply = .ok value ↔ tells value
  refused : (¬ ∃ value, tells value) → ∃ fault, reply = .error (.unreadable fault)

theorem told_of_decode {read : Json.Reader α} {tells : α → Prop} {body : Bytes}
    (reads : ∀ value, read.run body = .ok value ↔ tells value) :
    Told (decode read body) tells where
  whole value := by
    rw [decode, ← reads]
    cases read.run body <;> simp [Except.mapError]
  refused nothing := by
    rw [decode]
    cases outcome : read.run body with
    | ok value => exact absurd ⟨value, (reads value).mp outcome⟩ nothing
    | error fault => exact ⟨fault, rfl⟩

theorem told_of_ask {account : Account} {operation : Operation} {read : Json.Reader α}
    {tells : α → Prop} (world : World Wire.Question Wire.Question.Reply σ) (state : σ)
    {request : Http.Request} {head : Http.Head} {body : Bytes}
    (reads : ∀ value, read.run body = .ok value ↔ tells value) (accepted : head.status < 300)
    (answered : requestsOf ((ask account operation read).run world state).exchanges =
      [⟨request, .whole head body⟩]) :
    Told ((ask account operation read).run world state).value tells := by
  rw [value_of_ask world state accepted answered]
  exact told_of_decode reads

theorem tell_ensures (account : Account) (operation : Operation) :
    Wire.Ensures (tell account operation) fun sent reply =>
      ∃ body, Performs account operation sent body ∧ reply = body.bind fun _ => .ok () := by
  rw [tell, ← map_eq_pure_bind, Wire.ensures_map]
  refine (perform_ensures account operation).mono fun sent body performs => ⟨body, performs, ?_⟩
  cases body <;> rfl

end KeyService

end Cloud

end KeyCustody
