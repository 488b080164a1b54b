import KeyCustody.Signing.Authorization
import KeyCustody.Url.Basic

namespace KeyCustody.Http

/-! # Requests and answers

A request carries what vouches for it. Its answer comes whole, or breaks off within the
body, or does not come at all. -/

/-- The scope of a signature that counts for one day, region and service. -/
structure Scope where
  accessKey : String
  day : String
  region : String
  service : String
  deriving DecidableEq, Repr

/-- The parts of a scope, the last of which names its kind. -/
def Scope.parts (scope : Scope) : List String :=
  [scope.accessKey, scope.day, scope.region, scope.service, "aws4_request"]

inductive Voucher where
  /-- A digest of the request. -/
  | digest (authorization : Signing.Authorization)
  | scoped (scope : Scope)
  deriving DecidableEq, Repr

structure Request where
  method : String
  url : Url
  headers : List Signing.Header
  voucher : Voucher
  body : Bytes
  deriving DecidableEq, Repr

/-- The first lines of an answer. -/
structure Head where
  status : Nat
  headers : List Signing.Header
  deriving DecidableEq, Repr

inductive Answer where
  | lost
  | cut (head : Head)
  | whole (head : Head) (body : Bytes)
  deriving DecidableEq, Repr

/-- Whether a header may have this value: no controls but the tab. -/
def isSendable (value : String) : Bool :=
  value.toList.all fun c => c = '\t' || (0x20 ≤ c.toNat && c.toNat != 0x7F)

/-- Whether a value is of visible ASCII characters, blanks and tabs. -/
def isReadable (value : String) : Bool :=
  value.toList.all fun c => c = '\t' || (0x20 ≤ c.toNat && c.toNat < 0x7F)

/-- The value of the first header of a name, if it is readable. -/
def Head.value? (head : Head) (name : String) : Option String := do
  let lower (text : String) : List Char := text.toList.map Char.toLower
  let header ← head.headers.find? fun header => lower header.name == lower name
  if isReadable header.value then some header.value else none

def isSuccess (status : Nat) : Bool := 200 ≤ status && status < 300

end KeyCustody.Http
