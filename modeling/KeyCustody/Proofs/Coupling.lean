import KeyCustody.Proofs.Transcript
import Mathlib.Data.List.Forall2

namespace KeyCustody

/-! # Two runs side by side

Programs are compared apart from the worlds that reply to them: two programs are coupled if
they ask the same calls in the same order, up to tokens, whatever the replies are, and come to
related values, as long as the calls that are agreed on are answered alike. What either asks of
its host in between is its own affair. -/

namespace Service

/-- The call with its token left out. -/
def Call.withoutToken : Call → Call
  | .setRotation switch keyId _ => .setRotation switch keyId ""
  | .setKey switch keyId _ => .setKey switch keyId ""
  | asked => asked

end Service

def Answered.withoutToken : Answered → Answered
  | ⟨.setRotation switch keyId _, answer⟩ => ⟨.setRotation switch keyId "", answer⟩
  | ⟨.setKey switch keyId _, answer⟩ => ⟨.setKey switch keyId "", answer⟩
  | answered => answered

/-- What was asked, call by call, up to tokens. -/
def asks (calls : List Answered) : List Service.Call :=
  calls.map fun answered => answered.question.withoutToken

/-- The same answer to the same call, up to tokens. -/
def SameAnswer (first second : Answered) : Prop := first.withoutToken = second.withoutToken

/-- The same answer, if the call is agreed on. -/
def SameWhere (agreed : Service.Call → Prop) (first second : Answered) : Prop :=
  agreed first.question.withoutToken → SameAnswer first second

theorem SameAnswer.reply_eq {asked : Service.Call} {answer reply : Except Error asked.Reply}
    (same : SameAnswer ⟨asked, answer⟩ ⟨asked, reply⟩) : answer = reply := by
  cases asked <;> cases same <;> rfl

/-- Both results are the same failure, or both are values so related. -/
inductive ResultsRelated (related : α → β → Prop) : Except Error α → Except Error β → Prop where
  | error (cause : Error) : ResultsRelated related (.error cause) (.error cause)
  | ok (value : α) (last : β) (holds : related value last) :
      ResultsRelated related (.ok value) (.ok last)

theorem ResultsRelated.refl (result : Except Error α) : ResultsRelated Eq result result := by
  cases result with
  | error cause => exact .error cause
  | ok value => exact .ok value value rfl

theorem ResultsRelated.eq {related : α → α → Prop} {result last : Except Error α}
    (holds : ResultsRelated related result last)
    (same : ∀ value other, related value other → value = other) : result = last := by
  cases holds with
  | error cause => rfl
  | ok value last holds => rw [same value last holds]

namespace Custody

/-- The programs ask the same calls and come to related values. -/
inductive Couples (agreed : Service.Call → Prop) (related : α → β → Prop) :
    Custody α → Custody β → Prop where
  | done (value : α) (last : β) (holds : related value last) :
      Couples agreed related (.done value) (.done last)
  | call (asked also : Service.Call) (next : Except Error asked.Reply → Custody α)
      (later : Except Error also.Reply → Custody β)
      (same : asked.withoutToken = also.withoutToken)
      (rest : ∀ answer reply, SameWhere agreed ⟨asked, answer⟩ ⟨also, reply⟩ →
        Couples agreed related (next answer) (later reply)) :
      Couples agreed related (.ask (.call asked) next) (.ask (.call also) later)
  | left (request : Ambient) (next : request.Reply → Custody α) (second : Custody β)
      (rest : ∀ reply, Couples agreed related (next reply) second) :
      Couples agreed related (.ask (.host request) next) second
  | right (request : Ambient) (first : Custody α) (later : request.Reply → Custody β)
      (rest : ∀ reply, Couples agreed related first (later reply)) :
      Couples agreed related first (.ask (.host request) later)

variable {agreed : Service.Call → Prop} {related : α → β → Prop}

theorem Couples.bind {next : α → Custody γ} {later : β → Custody δ} {closing : γ → δ → Prop}
    {first : Custody α} {second : Custody β} (coupled : Couples agreed related first second)
    (rest : ∀ value last, related value last → Couples agreed closing (next value) (later last)) :
    Couples agreed closing (first >>= next) (second >>= later) := by
  induction coupled with
  | done value last holds => exact rest value last holds
  | call asked also before begun same follows induction =>
      exact .call asked also _ _ same fun answer reply alike => induction answer reply alike
  | left request before second follows induction => exact .left request _ _ induction
  | right request first begun follows induction => exact .right request _ _ induction

theorem couples_call {asked : Service.Call} (alike : agreed asked.withoutToken) :
    Couples agreed Eq (call asked) (call asked) :=
  .call asked asked _ _ rfl fun _ _ same => .done _ _ (same alike).reply_eq

theorem couples_note (notice : Notice) : Couples agreed Eq (note notice) (note notice) :=
  .left _ _ _ fun _ => .right _ _ _ fun _ => .done _ _ rfl

theorem ensures_ask {asked : Service.Call} {next : Except Error asked.Reply → Custody α}
    {condition : List Answered → α → Prop} :
    Ensures (.ask (.call asked) next) condition ↔
      ∀ answer, (next answer).Ensures fun rest value => condition (⟨asked, answer⟩ :: rest) value :=
  Iff.rfl

/-- Of a program that calls, some run begins with its call. -/
theorem Ensures.exists_run {asked : Service.Call} {next : Except Error asked.Reply → Custody α}
    {condition : List Answered → α → Prop}
    (ensured : Ensures (.ask (.call asked) next) condition) :
    ∃ answer rest value, condition (⟨asked, answer⟩ :: rest) value :=
  ⟨_, _, _, ensured.holds (steadyWorld fun _ => .error (.transport "")) ()⟩

/-- Programs are coupled if what they ensure leaves no choice in the calls and relates the
values. -/
theorem couples_of_ensures {first : Custody α} {second : Custody β}
    {condition : List Answered → α → Prop} {other : List Answered → β → Prop}
    (ensured : first.Ensures condition) (also : second.Ensures other)
    (joint : ∀ calls value later last, condition calls value → other later last →
      asks calls = asks later ∧
        (List.Forall₂ (SameWhere agreed) calls later → related value last)) :
    Couples agreed related first second := by
  -- Each program is followed on its own up to its next call. Both have one there or neither has,
  -- since runs that begin so ask alike.
  induction first generalizing second condition other with
  | done value =>
      induction second generalizing other with
      | done last => exact .done _ _ ((joint _ _ _ _ ensured also).2 .nil)
      | ask question later induction =>
          cases question with
          | host request =>
              exact .right _ _ _ fun reply => induction reply (also reply) joint
          | call asked =>
              obtain ⟨answer, rest, last, holds⟩ := also.exists_run
              cases (joint _ _ _ _ ensured holds).1
  | ask question next outer =>
      cases question with
      | host request => exact .left _ _ _ fun reply => outer reply (ensured reply) also joint
      | call asked =>
          obtain ⟨answer, rest, value, begun⟩ := ensured.exists_run
          induction second generalizing other with
          | done last => cases (joint _ _ _ _ begun also).1
          | ask question later induction =>
              cases question with
              | host request =>
                  exact .right _ _ _ fun reply => induction reply (also reply) joint
              | call given =>
                  obtain ⟨_, _, _, holds⟩ := also.exists_run
                  have same := (List.cons.inj (joint _ _ _ _ begun holds).1).1
                  refine .call asked given _ _ same fun answer reply alike => ?_
                  refine outer answer (ensures_ask.mp ensured answer) (ensures_ask.mp also reply)
                    fun calls value after last holds meets => ?_
                  obtain ⟨asksAlike, relates⟩ := joint _ _ _ _ holds meets
                  exact ⟨(List.cons.inj asksAlike).2, fun rest => relates (.cons alike rest)⟩

end Custody

namespace Errand

/-- The errands ask the same calls and come to related values, or to the same failure. -/
def Couples (agreed : Service.Call → Prop) (related : α → β → Prop) (first : Errand α)
    (second : Errand β) : Prop :=
  Custody.Couples agreed (ResultsRelated related) first.attempt second.attempt

variable {agreed : Service.Call → Prop} {related : α → β → Prop}

theorem Couples.bind {next : α → Errand γ} {later : β → Errand δ} {closing : γ → δ → Prop}
    {first : Errand α} {second : Errand β} (coupled : first.Couples agreed related second)
    (rest : ∀ value last, related value last → (next value).Couples agreed closing (later last)) :
    Couples agreed closing (first >>= next) (second >>= later) := by
  rw [Couples, attempt, attempt, ExceptT.run_bind, ExceptT.run_bind]
  refine Custody.Couples.bind coupled fun result last holds => ?_
  cases holds with
  | error cause => exact .done _ _ (.error cause)
  | ok value last holds => exact rest value last holds

theorem couples_pure {value : α} {last : β} (holds : related value last) :
    Couples agreed related (pure value) (pure last) := .done _ _ (.ok value last holds)

theorem couples_lift {first : Custody α} {second : Custody β}
    (coupled : first.Couples agreed related second) :
    Couples agreed related (liftM first) (liftM second) := by
  change Custody.Couples agreed _ (Except.ok <$> first) (Except.ok <$> second)
  rw [map_eq_pure_bind, map_eq_pure_bind]
  exact coupled.bind fun value last holds => .done _ _ (.ok value last holds)

end Errand

/-- Two worlds that go on alike from linked states, whatever their hosts are asked in between.
They answer the calls that are agreed on alike. -/
structure Alike (agreed : Service.Call → Prop) (linked : σ → τ → Prop)
    (first : World Question Question.Reply σ) (second : World Question Question.Reply τ) :
    Prop where
  call : ∀ state last (asked also : Service.Call), linked state last →
    asked.withoutToken = also.withoutToken →
      linked (first.reply (.call asked) state).2 (second.reply (.call also) last).2
  answer : ∀ state last (asked also : Service.Call), linked state last →
    asked.withoutToken = also.withoutToken →
      SameWhere agreed ⟨asked, (first.reply (.call asked) state).1⟩
        ⟨also, (second.reply (.call also) last).1⟩
  left : ∀ state last request, linked state last →
    linked (first.reply (.host request) state).2 last
  right : ∀ state last request, linked state last →
    linked state (second.reply (.host request) last).2

/-- Coupled programs ask the same calls and come to related values in any two worlds that are
alike. -/
theorem Custody.Couples.holds {agreed : Service.Call → Prop} {related : α → β → Prop}
    {linked : σ → τ → Prop} {first : World Question Question.Reply σ}
    {second : World Question Question.Reply τ} {program : Custody α} {other : Custody β}
    (coupled : program.Couples agreed related other) (alike : Alike agreed linked first second)
    {state : σ} {last : τ} (start : linked state last) :
    asks (program.run first state).calls = asks (other.run second last).calls ∧
      related (program.run first state).value (other.run second last).value := by
  induction coupled generalizing state last with
  | done value last holds => exact ⟨rfl, holds⟩
  | call asked also next later same rest induction =>
      have going := induction _ _ (alike.answer state last asked also start same)
        (alike.call state last asked also start same)
      exact ⟨congrArg₂ List.cons same going.1, going.2⟩
  | left request next second rest induction =>
      exact induction _ (alike.left state last request start)
  | right request first later rest induction =>
      exact induction _ (alike.right state last request start)

/-- The answer to a call that takes a token does not depend on the token. -/
structure Tokenless (answer : (asked : Service.Call) → Except Error asked.Reply) : Prop where
  setRotation : ∀ switch keyId token fresh,
    answer (.setRotation switch keyId token) = answer (.setRotation switch keyId fresh)
  setKey : ∀ switch keyId token fresh,
    answer (.setKey switch keyId token) = answer (.setKey switch keyId fresh)

theorem Tokenless.sameAnswer {answer : (asked : Service.Call) → Except Error asked.Reply}
    (tokenless : Tokenless answer) {asked also : Service.Call}
    (same : asked.withoutToken = also.withoutToken) :
    SameAnswer ⟨asked, answer asked⟩ ⟨also, answer also⟩ := by
  cases asked <;> cases also <;> cases same
  case setRotation.setRotation.refl switch keyId token fresh =>
    exact congrArg (Exchange.mk _) (tokenless.setRotation switch keyId token fresh)
  case setKey.setKey.refl switch keyId token fresh =>
    exact congrArg (Exchange.mk _) (tokenless.setKey switch keyId token fresh)
  all_goals rfl

/-- The world answers every call by this function of it, in all its states and whatever the
token. -/
structure Answers (world : World Question Question.Reply σ)
    (answer : (asked : Service.Call) → Except Error asked.Reply) : Prop
    extends Tokenless answer where
  given : ∀ state asked, (world.reply (.call asked) state).1 = answer asked

theorem Answers.alike {agreed : Service.Call → Prop} {first : World Question Question.Reply σ}
    {second : World Question Question.Reply τ}
    {answer other : (asked : Service.Call) → Except Error asked.Reply}
    (answers : Answers first answer) (others : Answers second other)
    (same : ∀ asked : Service.Call, agreed asked.withoutToken → answer asked = other asked) :
    Alike agreed (fun _ _ => True) first second where
  call _ _ _ _ _ _ := trivial
  answer state last asked also _ alike covered := by
    rw [answers.given, others.given, same asked covered]
    exact others.sameAnswer alike
  left _ _ _ _ := trivial
  right _ _ _ _ := trivial

/-- The world of such a provider on a host that numbers its tokens. -/
def numberingWorld (answer : (asked : Service.Call) → Except Error asked.Reply) :
    World Question Question.Reply Nat where
  reply
    | .call asked, used => (answer asked, used)
    | .host .token, used => (toString used, used + 1)
    | .host request, used => (stillHost request, used)

end KeyCustody
