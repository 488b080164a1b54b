import KeyCustody.Action

namespace KeyCustody

/-! # Notices

What a program reports about its work while it runs. -/

inductive Notice.Level where
  | info
  | error
  deriving DecidableEq, Repr

def Notice.Level.text : Notice.Level → String
  | .info => "INFO"
  | .error => "ERROR"

inductive Notice where
  | tagsUnavailable
  | keysUnavailable
  | running
  | skipped (action : Action)
  | succeeded (action : Action)
  | rotationUnchanged
  | failed (action : Action)
  | keyFailed
  | nothingToImport
  | manifestUnavailable
  | aliasCreated
  deriving DecidableEq, Repr

namespace Notice

def level : Notice → Level
  | .running => .info
  | .skipped _ => .info
  | .succeeded _ => .info
  | .rotationUnchanged => .info
  | .aliasCreated => .info
  | _ => .error

def text : Notice → String
  | .tagsUnavailable => "failed to query kms tags"
  | .keysUnavailable => "failed to list kms keys"
  | .running => "running action"
  | .skipped action => "skip " ++ action.name
  | .succeeded action => action.name ++ " succeeded"
  | .rotationUnchanged => "key rotation already enabled or not supported"
  | .failed action => action.name ++ " failed"
  | .keyFailed => "action failed"
  | .nothingToImport => "key_aliases or obs_url is required"
  | .manifestUnavailable => "get obs object failed"
  | .aliasCreated => "created key with alias"

/-- The notice on one line. -/
def line (notice : Notice) : String := notice.level.text ++ " " ++ notice.text

end Notice

end KeyCustody
