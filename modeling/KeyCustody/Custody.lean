import KeyCustody.Dialogue
import KeyCustody.Error
import KeyCustody.Notice
import KeyCustody.Terminal

namespace KeyCustody

/-! # Programs that take care of keys

Such a program calls the provider, reads the clock, sleeps, takes fresh tokens, gives
notices and prints lines. A call may fail, and its failure is part of the reply; a `Errand`
stops at the first failure that it does not handle. -/

/-- Nanoseconds since the start of 1970, negative before it. -/
abbrev Instant := Int

/-- Whole seconds since the start of 1970. -/
def Instant.seconds (instant : Instant) : Int := instant / 1000000000

/-- What a program asks of its host, apart from the provider. -/
inductive Ambient where
  | now
  | sleep (milliseconds : Nat)
  | token
  | note (notice : Notice)
  | print (line : Terminal.Line)
  deriving DecidableEq, Repr

abbrev Ambient.Reply : Ambient → Type
  | .now => Instant
  | .sleep _ => Unit
  | .token => String
  | .note _ => Unit
  | .print _ => Unit

inductive Question where
  | call (call : Service.Call)
  | host (request : Ambient)
  deriving DecidableEq, Repr

abbrev Question.Reply : Question → Type
  | .call asked => Except Error asked.Reply
  | .host request => request.Reply

abbrev Custody := Dialogue Question Question.Reply

abbrev Errand := ExceptT Error Custody

namespace Custody

def call (asked : Service.Call) : Custody (Except Error asked.Reply) :=
  Dialogue.question (Question.call asked)

def now : Custody Instant := Dialogue.question (Question.host .now)

def sleep (milliseconds : Nat) : Custody Unit :=
  Dialogue.question (Question.host (.sleep milliseconds))

def token : Custody String := Dialogue.question (Question.host .token)

def note (notice : Notice) : Custody Unit := Dialogue.question (Question.host (.note notice))

def print (line : Terminal.Line) : Custody Unit :=
  Dialogue.question (Question.host (.print line))

/-- Prints lines one after another. -/
def printAll : List Terminal.Line → Custody Unit
  | [] => pure ()
  | line :: rest => do print line; printAll rest

end Custody

/-- A call whose failure ends the errand. -/
def Errand.call (asked : Service.Call) : Errand asked.Reply := ExceptT.mk (Custody.call asked)

/-- An errand whose failure is handed on as a value. -/
def Errand.attempt (errand : Errand α) : Custody (Except Error α) := errand.run

/-- An errand that gives a notice when it fails. -/
def Errand.noting (notice : Notice) (errand : Errand α) : Errand α :=
  ExceptT.mk do
    let result ← errand.attempt
    if let .error _ := result then Custody.note notice
    pure result

end KeyCustody
