import KeyCustody.Custody

namespace KeyCustody

/-! # Transcripts

What a program asks is judged apart from the world that replies: a dialogue ensures a
condition if its exchanges and its value meet it whatever the replies are, and then they
meet it in every world. The calls of a program are its exchanges with the provider; what
it asks of its host is left out of them. -/

namespace Dialogue

variable {Q : Type} {R : Q → Type} {α β σ : Type}

/-- Whatever is replied, the exchanges and the value meet the condition. -/
def Ensures : Dialogue Q R α → (List (Exchange Q R) → α → Prop) → Prop
  | .done value, condition => condition [] value
  | .ask question next, condition =>
      ∀ reply, (next reply).Ensures fun rest value => condition (⟨question, reply⟩ :: rest) value

theorem Ensures.mono {dialogue : Dialogue Q R α} {strong weak : List (Exchange Q R) → α → Prop}
    (ensured : dialogue.Ensures strong)
    (implies : ∀ exchanges value, strong exchanges value → weak exchanges value) :
    dialogue.Ensures weak := by
  induction dialogue generalizing strong weak with
  | done value => exact implies [] value ensured
  | ask question next induction =>
      intro reply
      exact induction reply (ensured reply) fun rest value => implies _ value

theorem ensures_bind (first : Dialogue Q R α) (next : α → Dialogue Q R β)
    (condition : List (Exchange Q R) → β → Prop) :
    (first.bind next).Ensures condition ↔
      first.Ensures fun before value =>
        (next value).Ensures fun after last => condition (before ++ after) last := by
  induction first generalizing condition with
  | done value => exact Iff.rfl
  | ask question rest induction => exact forall_congr' fun reply => induction reply _

/-- What a dialogue ensures holds of its run in every world. -/
theorem Ensures.holds {dialogue : Dialogue Q R α} {condition : List (Exchange Q R) → α → Prop}
    (ensured : dialogue.Ensures condition) (world : World Q R σ) (state : σ) :
    condition (dialogue.run world state).exchanges (dialogue.run world state).value := by
  induction dialogue generalizing condition state with
  | done value => exact ensured
  | ask question next induction => exact induction _ (ensured _) _

/-- What follows on one value alone need agree on that value alone. -/
theorem run_bind_congr (world : World Q R σ) (first : Dialogue Q R α)
    (next other : α → Dialogue Q R β) (state : σ)
    (same : ∀ value, (first.run world state).value = value → ∀ after,
      (next value).run world after = (other value).run world after) :
    (first >>= next).run world state = (first >>= other).run world state := by
  simp only [bind_eq, run_bind]
  rw [same _ rfl]

end Dialogue

/-- A call with its answer. -/
abbrev Answered := Exchange Service.Call fun asked => Except Error asked.Reply

/-- The call was answered with a reply, not with a failure. -/
def Granted (answered : Answered) : Prop := ∃ reply, answered.reply = .ok reply

theorem not_granted_error {asked : Service.Call} {cause : Error} :
    ¬ Granted ⟨asked, .error cause⟩ := fun ⟨_, answer⟩ => nomatch answer

def Exchange.answered? : Exchange Question Question.Reply → Option Answered
  | ⟨.call asked, answer⟩ => some ⟨asked, answer⟩
  | ⟨.host _, _⟩ => none

/-- The calls among exchanges, each with its answer. -/
def callsOf (exchanges : List (Exchange Question Question.Reply)) : List Answered :=
  exchanges.filterMap Exchange.answered?

def Run.calls (ran : Run Question Question.Reply σ α) : List Answered := callsOf ran.exchanges

/-- From a state on, the calls are answered in turn by the world, which ends in the last state.
What the host is asked between the calls moves the state too. -/
inductive Traverses (world : World Question Question.Reply σ) : σ → List Answered → σ → Prop where
  | done (state : σ) : Traverses world state [] state
  | call (state last : σ) (asked : Service.Call) (later : List Answered)
      (rest : Traverses world (world.reply (.call asked) state).2 later last) :
      Traverses world state (⟨asked, (world.reply (.call asked) state).1⟩ :: later) last
  | host (state last : σ) (request : Ambient) (calls : List Answered)
      (rest : Traverses world (world.reply (.host request) state).2 calls last) :
      Traverses world state calls last

theorem run_traverses (world : World Question Question.Reply σ) (program : Custody α) (state : σ) :
    Traverses world state (program.run world state).calls (program.run world state).state := by
  induction program generalizing state with
  | done value => exact .done state
  | ask question next induction =>
      cases question with
      | call asked => exact .call state _ asked _ (induction _ _)
      | host request => exact .host state _ request _ (induction _ _)

theorem Traverses.exists_reply {world : World Question Question.Reply σ} {state last : σ}
    {calls : List Answered} (traverses : Traverses world state calls last) {answered : Answered}
    (member : answered ∈ calls) :
    ∃ held, answered.reply = (world.reply (.call answered.question) held).1 := by
  induction traverses with
  | done state => cases member
  | call state last asked later rest induction =>
      rcases List.mem_cons.mp member with rfl | further
      · exact ⟨state, rfl⟩
      · exact induction further
  | host state last request calls rest induction => exact induction member

theorem exists_reply_of_mem_calls (world : World Question Question.Reply σ)
    (program : Custody α) (state : σ) {answered : Answered}
    (member : answered ∈ (program.run world state).calls) :
    ∃ held, answered.reply = (world.reply (.call answered.question) held).1 :=
  (run_traverses world program state).exists_reply member

theorem callsOf_append (before after : List (Exchange Question Question.Reply)) :
    callsOf (before ++ after) = callsOf before ++ callsOf after := List.filterMap_append

namespace Custody

/-- Whatever is answered, the calls and the value meet the condition. -/
def Ensures (program : Custody α) (condition : List Answered → α → Prop) : Prop :=
  Dialogue.Ensures program fun exchanges value => condition (callsOf exchanges) value

theorem Ensures.mono {program : Custody α} {strong weak : List Answered → α → Prop}
    (ensured : program.Ensures strong)
    (implies : ∀ calls value, strong calls value → weak calls value) : program.Ensures weak :=
  Dialogue.Ensures.mono ensured fun exchanges value => implies (callsOf exchanges) value

theorem Ensures.holds {program : Custody α} {condition : List Answered → α → Prop}
    (ensured : program.Ensures condition) (world : World Question Question.Reply σ) (state : σ) :
    condition (program.run world state).calls (program.run world state).value :=
  Dialogue.Ensures.holds ensured world state

theorem ensures_congr {program : Custody α} {first second : List Answered → α → Prop}
    (same : ∀ calls value, first calls value ↔ second calls value) :
    program.Ensures first ↔ program.Ensures second :=
  ⟨fun ensured => ensured.mono fun calls value => (same calls value).mp,
    fun ensured => ensured.mono fun calls value => (same calls value).mpr⟩

variable {condition : List Answered → β → Prop}

@[simp] theorem ensures_pure (value : β) :
    Ensures (pure value) condition ↔ condition [] value := Iff.rfl

@[simp] theorem ensures_bind (first : Custody α) (next : α → Custody β) :
    Ensures (first >>= next) condition ↔
      first.Ensures fun before value =>
        (next value).Ensures fun after last => condition (before ++ after) last := by
  simp only [Ensures, Dialogue.bind_eq, Dialogue.ensures_bind, callsOf_append]

@[simp] theorem ensures_map (f : α → β) (program : Custody α) :
    Ensures (f <$> program) condition ↔
      program.Ensures fun calls value => condition calls (f value) := by
  simp only [map_eq_pure_bind, ensures_bind, ensures_pure, List.append_nil]

@[simp] theorem ensures_call {asked : Service.Call}
    {condition : List Answered → Except Error asked.Reply → Prop} :
    (call asked).Ensures condition ↔ ∀ answer, condition [⟨asked, answer⟩] answer := Iff.rfl

@[simp] theorem ensures_now {condition : List Answered → Instant → Prop} :
    now.Ensures condition ↔ ∀ instant, condition [] instant := Iff.rfl

@[simp] theorem ensures_token {condition : List Answered → String → Prop} :
    token.Ensures condition ↔ ∀ fresh, condition [] fresh := Iff.rfl

@[simp] theorem ensures_sleep (milliseconds : Nat) {condition : List Answered → Unit → Prop} :
    (sleep milliseconds).Ensures condition ↔ condition [] () :=
  ⟨fun ensured => ensured (), fun holds _ => holds⟩

@[simp] theorem ensures_note (notice : Notice) {condition : List Answered → Unit → Prop} :
    (note notice).Ensures condition ↔ condition [] () :=
  ⟨fun ensured => ensured (), fun holds _ => holds⟩

end Custody

namespace Errand

def Ensures (errand : Errand α) (condition : List Answered → Except Error α → Prop) : Prop :=
  errand.attempt.Ensures condition

theorem Ensures.mono {errand : Errand α} {strong weak : List Answered → Except Error α → Prop}
    (ensured : errand.Ensures strong)
    (implies : ∀ calls result, strong calls result → weak calls result) : errand.Ensures weak :=
  Custody.Ensures.mono ensured implies

theorem Ensures.holds {errand : Errand α} {condition : List Answered → Except Error α → Prop}
    (ensured : errand.Ensures condition) (world : World Question Question.Reply σ) (state : σ) :
    condition (errand.attempt.run world state).calls (errand.attempt.run world state).value :=
  Custody.Ensures.holds ensured world state

/-- An errand goes on from where its first part leaves the world. -/
theorem run_bind_ok {world : World Question Question.Reply σ} {state : σ} {first : Errand α}
    {next : α → Errand β} {value : α} (gives : (first.attempt.run world state).value = .ok value) :
    (first >>= next).attempt.run world state =
      let before := first.attempt.run world state
      let after := (next value).attempt.run world before.state
      ⟨after.value, after.state, before.exchanges ++ after.exchanges⟩ := by
  rw [attempt] at gives ⊢
  rw [ExceptT.run_bind, Dialogue.bind_eq, Dialogue.run_bind]
  dsimp only
  rw [gives]
  rfl

theorem run_bind_error {world : World Question Question.Reply σ} {state : σ} {first : Errand α}
    {next : α → Errand β} {cause : Error}
    (fails : (first.attempt.run world state).value = .error cause) :
    (first >>= next).attempt.run world state =
      let before := first.attempt.run world state
      ⟨.error cause, before.state, before.exchanges⟩ := by
  rw [attempt] at fails ⊢
  rw [ExceptT.run_bind, Dialogue.bind_eq, Dialogue.run_bind]
  dsimp only
  rw [fails, attempt]
  simp only [Dialogue.pure_eq, Dialogue.run_done, List.append_nil]

theorem calls_bind_ok {world : World Question Question.Reply σ} {state : σ} {first : Errand α}
    {next : α → Errand β} {value : α} (gives : (first.attempt.run world state).value = .ok value) :
    ((first >>= next).attempt.run world state).calls =
      let before := first.attempt.run world state
      before.calls ++ ((next value).attempt.run world before.state).calls := by
  rw [run_bind_ok gives, Run.calls, callsOf_append]
  rfl

theorem calls_bind_error {world : World Question Question.Reply σ} {state : σ} {first : Errand α}
    {next : α → Errand β} {cause : Error}
    (fails : (first.attempt.run world state).value = .error cause) :
    ((first >>= next).attempt.run world state).calls = (first.attempt.run world state).calls := by
  rw [run_bind_error fails]
  rfl

/-- The calls of a program come first, and then those of the errand that goes on from its value. -/
theorem exists_later_calls {first : Custody α} {next : α → Errand β}
    {condition : α → List Answered → Except Error β → Prop}
    (ensured : ∀ value, (next value).Ensures (condition value))
    (world : World Question Question.Reply σ) (state : σ) :
    let before := first.run world state
    let ran := (liftM first >>= next : Errand β).attempt.run world state
    ∃ later, ran.calls = before.calls ++ later ∧ condition before.value later ran.value := by
  intro before ran
  have whole : ran = (first.bind fun value => (next value).attempt).run world state :=
    congrArg (Dialogue.run world · state) (ExceptT.run_bind_lift first next)
  rw [whole, Dialogue.run_bind, Run.calls, callsOf_append]
  exact ⟨_, rfl, (ensured before.value).holds world before.state⟩

variable {condition : List Answered → Except Error β → Prop}

@[simp] theorem ensures_pure (value : β) :
    Ensures (pure value) condition ↔ condition [] (.ok value) := Iff.rfl

@[simp] theorem ensures_throw (cause : Error) :
    Ensures (throw cause : Errand β) condition ↔ condition [] (.error cause) := Iff.rfl

theorem ensures_bind (first : Errand α) (next : α → Errand β) :
    Ensures (first >>= next) condition ↔
      first.Ensures fun before result =>
        match result with
        | .ok value => (next value).Ensures fun after last => condition (before ++ after) last
        | .error cause => condition before (.error cause) := by
  simp only [Ensures, attempt, ExceptT.run_bind, Custody.ensures_bind]
  refine Custody.ensures_congr fun before result => ?_
  cases result with
  | ok value => exact Iff.rfl
  | error cause => simp

theorem Ensures.bind {first : Errand α} {next : α → Errand β}
    {middle : List Answered → Except Error α → Prop} (ensured : first.Ensures middle)
    (succeeds : ∀ before value, middle before (.ok value) →
      (next value).Ensures fun after last => condition (before ++ after) last)
    (fails : ∀ before cause, middle before (.error cause) → condition before (.error cause)) :
    Ensures (first >>= next) condition := by
  rw [ensures_bind]
  refine ensured.mono fun before result holds => ?_
  cases result with
  | ok value => exact succeeds before value holds
  | error cause => exact fails before cause holds

/-- An errand that only makes something of the value of another asks for what the other asks
for. -/
theorem ensures_bind_pure (first : Errand α) (f : α → β) :
    Ensures (first >>= fun value => pure (f value)) condition ↔
      first.Ensures fun calls result => condition calls (result.map f) := by
  rw [ensures_bind]
  refine Custody.ensures_congr fun calls result => ?_
  cases result with
  | ok value => simp only [ensures_pure, List.append_nil, Except.map]
  | error cause => exact Iff.rfl

@[simp] theorem ensures_call {asked : Service.Call}
    {condition : List Answered → Except Error asked.Reply → Prop} :
    (call asked).Ensures condition ↔ ∀ answer, condition [⟨asked, answer⟩] answer := Iff.rfl

@[simp] theorem ensures_lift (program : Custody β) :
    Ensures (liftM program) condition ↔
      program.Ensures fun calls value => condition calls (.ok value) := by
  change Custody.Ensures (Except.ok <$> program) condition ↔ _
  rw [Custody.ensures_map]

@[simp] theorem ensures_liftExcept (result : Except Error β) :
    Ensures (liftM result) condition ↔ condition [] result := Iff.rfl

/-- A notice of a failure is no call. -/
@[simp] theorem ensures_noting (notice : Notice) (errand : Errand β) :
    Ensures (errand.noting notice) condition ↔ errand.Ensures condition := by
  change Custody.Ensures (errand.attempt >>= fun result => _) condition ↔ _
  rw [Custody.ensures_bind]
  refine Custody.ensures_congr fun calls result => ?_
  cases result with
  | ok value => simp
  | error cause => simp

end Errand

/-- A host whose clock stands at zero and whose tokens are all alike. -/
def stillHost : (request : Ambient) → request.Reply
  | .now => (0 : Int)
  | .sleep _ => ()
  | .token => ""
  | .note _ => ()
  | .print _ => ()

/-- The world of a provider that answers a call in the same way at all times. -/
def steadyWorld (answer : (asked : Service.Call) → Except Error asked.Reply) :
    World Question Question.Reply Unit where
  reply
    | .call asked, state => (answer asked, state)
    | .host request, state => (stillHost request, state)

end KeyCustody
