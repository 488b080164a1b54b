import KeyCustody.Service.Call

namespace KeyCustody

/-! # Actions

What can be done to a key. -/

inductive Action where
  | enableRotation
  | disableRotation
  | enableKey
  | disableKey
  deriving DecidableEq, Repr

def Action.name : Action → String
  | .enableRotation => "enable_key_rotation"
  | .disableRotation => "disable_key_rotation"
  | .enableKey => "enable_key"
  | .disableKey => "disable_key"

end KeyCustody
