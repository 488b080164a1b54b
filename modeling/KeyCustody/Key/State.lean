namespace KeyCustody.Key

/-! # Key states

The provider writes a state as a code. A code outside the table is kept as it is, so a
state read from a code always gives that code back. -/

inductive State where
  | pendingActivation
  | enabled
  | disabled
  | pendingDeletion
  | pendingImport
  | unknown (code : String)
  deriving DecidableEq, Repr

namespace State

def ofCode (code : String) : State :=
  if code = "1" then .pendingActivation
  else if code = "2" then .enabled
  else if code = "3" then .disabled
  else if code = "4" then .pendingDeletion
  else if code = "5" then .pendingImport
  else .unknown code

def code : State → String
  | .pendingActivation => "1"
  | .enabled => "2"
  | .disabled => "3"
  | .pendingDeletion => "4"
  | .pendingImport => "5"
  | .unknown code => code

/-- The name of the state for people. -/
def text : State → String
  | .pendingActivation => "pending-activation"
  | .enabled => "enabled"
  | .disabled => "disabled"
  | .pendingDeletion => "pending-deletion"
  | .pendingImport => "pending-import"
  | .unknown code => "unknown(" ++ code ++ ")"

theorem code_ofCode (code : String) : (ofCode code).code = code := by
  unfold ofCode
  repeat' split
  all_goals simp_all [State.code]

end State

end KeyCustody.Key
