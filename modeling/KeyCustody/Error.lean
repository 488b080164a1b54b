import KeyCustody.Json.Document

namespace KeyCustody

/-! # What can go wrong

One cause for each failure. `message` is the text an operator reads. -/

/-- A request that the provider answered with an error, or could not answer. Without a
status there was no answer. -/
structure ProviderError where
  status : Option Nat
  code : Option String
  detail : String
  requestId : Option String
  deriving DecidableEq, Repr

namespace ProviderError

/-- A request that got no answer. -/
def unanswered (detail : String) : ProviderError := ⟨none, none, detail, none⟩

def isBadRequest (error : ProviderError) : Bool := error.status == some 400

def message (error : ProviderError) : String :=
  (match error.status with
    | some status => "provider returned " ++ toString status
    | none => "provider request failed") ++
  (match error.code with
    | some code => " [" ++ code ++ "]"
    | none => "") ++
  ": " ++ error.detail ++
  (match error.requestId with
    | some id => " (request id " ++ id ++ ")"
    | none => "")

end ProviderError

inductive SettingsError where
  | notFound (path : String)
  | unreadable (reason : String)
  | notToml (reason : String)
  | missingField (field : String)
  | invalidValue (field reason : String)
  deriving DecidableEq, Repr

def SettingsError.message : SettingsError → String
  | .notFound path => "config file not found: " ++ path
  | .unreadable reason => "failed to read config: " ++ reason
  | .notToml reason => "failed to parse config: " ++ reason
  | .missingField field => "missing required field: " ++ field
  | .invalidValue field reason => "invalid value for " ++ field ++ ": " ++ reason

def Json.Fault.message : Json.Fault → String
  | .malformed => "the text is not JSON"
  | .truncated => "the text ends early"
  | .mismatch => "the value is of another shape"

/-- Failures on the way from a manifest's location to its list of names. -/
inductive ManifestError where
  | malformedUrl (url reason : String)
  | refused (status : Nat) (code detail : String)
  | unreadable (fault : Json.Fault)
  deriving DecidableEq, Repr

def ManifestError.message : ManifestError → String
  | .malformedUrl url reason => "malformed obs url '" ++ url ++ "': " ++ reason
  | .refused status code detail =>
      "get obs object failed: " ++ toString status ++ " " ++ code ++ ", " ++ detail
  | .unreadable fault => "invalid manifest: " ++ fault.message

inductive Error where
  | settings (cause : SettingsError)
  | provider (cause : ProviderError)
  | manifest (cause : ManifestError)
  /-- A request that could not be made. -/
  | transport (reason : String)
  /-- An answer that is not the JSON it should be. -/
  | unreadable (fault : Json.Fault)
  /-- A finished run in which some keys failed. -/
  | incomplete (action : String) (failed matched : Nat)
  | io (reason : String)
  deriving DecidableEq, Repr

namespace Error

def message : Error → String
  | .settings cause => cause.message
  | .provider cause => cause.message
  | .manifest cause => cause.message
  | .transport reason => "transport error: " ++ reason
  | .unreadable fault => "json error: " ++ fault.message
  | .incomplete action failed matched =>
      action ++ ": " ++ toString failed ++ " of " ++ toString matched ++ " keys failed"
  | .io reason => "io error: " ++ reason

def provider? : Error → Option ProviderError
  | .provider cause => some cause
  | _ => none

end Error

end KeyCustody
