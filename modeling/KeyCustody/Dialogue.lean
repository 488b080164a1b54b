namespace KeyCustody

/-! # Dialogues

A program that talks to the outside is a tree: it is done with a value, or it asks a
question and goes on according to the reply. What replies is a world with a state. A run
gives the value, the world's last state, and the exchanges in order. `translate` answers
each question of one dialogue by a dialogue with another world. -/

/-- A program that asks questions `Q`, the reply to each of its own type. -/
inductive Dialogue (Q : Type) (R : Q → Type) (α : Type) : Type where
  | done (value : α)
  | ask (question : Q) (next : R question → Dialogue Q R α)

/-- What replies to every question, and may remember. -/
structure World (Q : Type) (R : Q → Type) (σ : Type) where
  reply : (question : Q) → σ → R question × σ

/-- A question with the reply it got. -/
structure Exchange (Q : Type) (R : Q → Type) where
  question : Q
  reply : R question

structure Run (Q : Type) (R : Q → Type) (σ α : Type) where
  value : α
  state : σ
  exchanges : List (Exchange Q R)

namespace Dialogue

variable {Q P : Type} {R : Q → Type} {S : P → Type} {α β γ σ : Type}

def bind : Dialogue Q R α → (α → Dialogue Q R β) → Dialogue Q R β
  | .done value, next => next value
  | .ask question rest, next => .ask question fun reply => (rest reply).bind next

instance : Monad (Dialogue Q R) where
  pure := .done
  bind := bind

/-- The dialogue that asks one question and is done with its reply. -/
def question (question : Q) : Dialogue Q R (R question) := .ask question .done

def run (world : World Q R σ) : Dialogue Q R α → σ → Run Q R σ α
  | .done value, state => ⟨value, state, []⟩
  | .ask question next, state =>
      let (reply, state) := world.reply question state
      let rest := (next reply).run world state
      ⟨rest.value, rest.state, ⟨question, reply⟩ :: rest.exchanges⟩

def translate (answer : (question : Q) → Dialogue P S (R question)) :
    Dialogue Q R α → Dialogue P S α
  | .done value => .done value
  | .ask question next => (answer question).bind fun reply => (next reply).translate answer

theorem pure_eq (value : α) : (pure value : Dialogue Q R α) = .done value := rfl

theorem bind_eq (first : Dialogue Q R α) (next : α → Dialogue Q R β) :
    (first >>= next) = first.bind next := rfl

theorem bind_done (first : Dialogue Q R α) : first.bind .done = first := by
  induction first with
  | done value => rfl
  | ask question next induction => simp only [bind, induction]

theorem bind_assoc (first : Dialogue Q R α) (second : α → Dialogue Q R β)
    (third : β → Dialogue Q R γ) :
    (first.bind second).bind third = first.bind fun value => (second value).bind third := by
  induction first with
  | done value => rfl
  | ask question next induction => simp only [bind, induction]

instance : LawfulMonad (Dialogue Q R) :=
  LawfulMonad.mk' _ bind_done (fun _ _ => rfl) bind_assoc

@[simp] theorem run_done (world : World Q R σ) (value : α) (state : σ) :
    (Dialogue.done value).run world state = ⟨value, state, []⟩ := rfl

/-- The second part of a program runs from where the first part leaves the world. -/
@[simp] theorem run_bind (world : World Q R σ) (first : Dialogue Q R α)
    (next : α → Dialogue Q R β) (state : σ) :
    (first.bind next).run world state =
      let before := first.run world state
      let after := (next before.value).run world before.state
      ⟨after.value, after.state, before.exchanges ++ after.exchanges⟩ := by
  induction first generalizing state with
  | done value => simp [bind]
  | ask question rest induction => simp [bind, run, induction]

end Dialogue

end KeyCustody
