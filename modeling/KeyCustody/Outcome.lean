import KeyCustody.Error
import KeyCustody.Json.Value

namespace KeyCustody

/-! # Outcomes

What happened to one key when an action was applied to it. -/

inductive SkipReason where
  /-- The key does not qualify, and nothing was asked of the provider. -/
  | ineligible (reason : String)
  /-- The provider refused since there is nothing to do. -/
  | alreadyApplied (detail : String)
  deriving DecidableEq, Repr

inductive Outcome where
  | done
  | skipped (reason : SkipReason)
  | failed (cause : String)
  deriving DecidableEq, Repr

def SkipReason.text : SkipReason → String
  | .ineligible reason => "ineligible: " ++ reason
  | .alreadyApplied detail => "already applied or unsupported: " ++ detail

namespace Outcome

def text : Outcome → String
  | .done => "done"
  | .skipped reason => "skipped (" ++ reason.text ++ ")"
  | .failed cause => "failed: " ++ cause

def isDone : Outcome → Bool
  | .done => true
  | _ => false

def isSkipped : Outcome → Bool
  | .skipped _ => true
  | _ => false

def isFailed : Outcome → Bool
  | .failed _ => true
  | _ => false

def json : Outcome → Json
  | .done => .object [("status", .text "done")]
  | .skipped (.ineligible reason) =>
      .object [("status", .text "skipped"), ("detail", .object [("ineligible", .text reason)])]
  | .skipped (.alreadyApplied detail) =>
      .object
        [("status", .text "skipped"), ("detail", .object [("already_applied", .text detail)])]
  | .failed cause => .object [("status", .text "failed"), ("detail", .text cause)]

end Outcome

end KeyCustody
