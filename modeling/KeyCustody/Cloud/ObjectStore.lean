import KeyCustody.Cloud.KeyService
import KeyCustody.Xml.Reference
import KeyCustody.Xml.Token

namespace KeyCustody.Cloud.ObjectStore

/-! # The object store

An object is fetched by one request that is signed for the object's own region. It goes to
the bucket's own host, or to an endpoint of which the bucket is the first part of the path.
A refusal says in XML what is wrong. -/

inductive Part where
  | code
  | detail
  deriving DecidableEq, Repr

def fieldOf (name : Xml.Name) : Option Part :=
  if name.own = "Code" then some .code
  else if name.own = "Message" then some .detail
  else none

/-- What was found of a refusal, with the name of its outermost element. -/
structure Found where
  root : String
  code : Option String
  detail : Option String
  deriving DecidableEq, Repr

def Found.put (found : Found) (field : Option Part) (value : String) : Found :=
  match field with
  | some .code => { found with code := some value }
  | some .detail => { found with detail := some value }
  | none => found

/-- Where in a refusal a token stands. The field of an element is open until its text is
found. -/
inductive Place where
  | outside
  | root (name : Xml.Name)
  | child (root name : Xml.Name) (level : Nat) (field : Option Part)
  deriving DecidableEq, Repr

/-- Reads the fields of a refusal. `level` counts the elements that are open. A field that
is open must hold text and no element; a text that breaks off elsewhere only ends the
reading. -/
def scan (level : Nat) (place : Place) (found : Found) : List Xml.Token → Option Found
  | [] =>
      match place with
      | .outside => none
      | .root _ => some found
      | .child _ _ _ field => some (found.put field "")
  | token :: rest =>
      match place, token with
      | .outside, .element name complete =>
          if complete then some { found with root := name.own }
          else scan 1 (.root name) { found with root := name.own } rest
      | .outside, .broken => none
      | .outside, _ => scan level .outside found rest
      | .root _, .broken => some found
      | .root root, .element name complete =>
          if complete then scan level (.root root) (found.put (fieldOf name) "") rest
          else scan (level + 1) (.child root name level (fieldOf name)) found rest
      | .root root, .close name =>
          if level ≤ 1 ∧ name = root then some found
          else scan (level - 1) (.root root) found rest
      | .root root, _ => scan level (.root root) found rest
      | .child _ _ _ field, .broken => if field.isSome then none else some found
      | .child root name outer field, .element _ complete =>
          if field.isSome then none
          else scan (if complete then level else level + 1) (.child root name outer none) found rest
      | .child root name outer field, .close closed =>
          if level = outer + 1 ∧ closed = name then
            scan outer (.root root) (found.put field "") rest
          else scan (level - 1) (.child root name outer field) found rest
      | .child root name outer field, .text raw =>
          if field.isNone ∨ raw.all Text.isBlank then
            scan level (.child root name outer field) found rest
          else do
            let value := String.ofList (← Xml.Reference.resolve raw)
            scan level (.child root name outer none) (found.put field value) rest
      | .child root name outer field, .other =>
          scan level (.child root name outer field) found rest

/-- Codes whose documents have to have an element `Error` outermost. -/
def strictCodes : List String := ["NoSuchKey", "InvalidObjectState"]

/-- The code and the message of a refusal. A refusal without a code has no message. -/
def refusal (status : Nat) (body : Bytes) : Option String × Option String :=
  if body.isEmpty then (if status = 404 then some "NotFound" else none, none)
  else
    match Text.Utf8.decode? body with
    | none => (none, none)
    | some text =>
        match scan 0 .outside ⟨"", none, none⟩ (Xml.tokens text) with
        | some ⟨root, some code, detail⟩ =>
            if strictCodes.contains code ∧ root ≠ "Error" then (none, none)
            else (some code, detail)
        | _ => (none, none)

def encoded (text : String) : String := String.ofList (Signing.Percent.encodePath text.toList)

def encodedName (text : String) : String :=
  String.ofList (Signing.Percent.encodeSegment text.toList)

/-- The path with a slash at its end. -/
def folder (path : String) : String := if path.endsWith "/" then path else path ++ "/"

def operationName : String := "x-id=GetObject"

/-- The URL of an object, if there is a proper one. -/
def urlOf (cloud : CloudSettings) (location : ObjectLocation) : Option Url :=
  match cloud.obsEndpoint with
  | some endpoint => do
      let url ← (Url.parse (trimSlashes endpoint)).toOption
      if KeyService.isWeb url ∧ url.query.isNone then
        pure { url with
          path := folder url.path ++ encodedName location.bucket ++ "/" ++
            encoded location.objectKey
          query := some operationName
          fragment := none }
      else none
  | none => do
      let url ← (Url.parse ("https://" ++ location.bucket ++ "." ++ location.endpoint)).toOption
      pure { url with path := "/" ++ encoded location.objectKey, query := some operationName }

/-- The day of a moment in eight digits. -/
def dayText (seconds : Int) : String :=
  String.ofList ((Calendar.timestamp seconds).toList.takeWhile (· ≠ 'T'))

def prepare (account : Account) (seconds : Int) (location : ObjectLocation) :
    Option Http.Request := do
  let url ← urlOf account.cloud location
  let host ← url.hostAndPort?
  let scope : Http.Scope :=
    ⟨account.credentials.accessKey, dayText seconds, location.region, "s3"⟩
  pure ⟨"GET", url, [⟨"host", host⟩, ⟨"x-amz-date", Calendar.timestamp seconds⟩],
    .scoped scope, []⟩

def noAnswer : String := "the object store did not answer"

def readAnswer : Http.Answer → Except ProviderError Service.ObjectAnswer
  | .lost => .error (.unanswered noAnswer)
  | .cut head =>
      if Http.isSuccess head.status then .error (.unanswered "streaming error")
      else .ok ⟨head.status, [], none, none⟩
  | .whole head body =>
      if Http.isSuccess head.status then .ok ⟨200, body, none, none⟩
      else
        let (code, detail) := refusal head.status body
        .ok ⟨head.status, [], code, detail⟩

/-- Fetches an object. -/
def fetch (account : Account) (location : ObjectLocation) :
    Wire (Except Error Service.ObjectAnswer) := do
  let now ← Wire.host .now
  match prepare account (Instant.seconds now) location with
  | none => pure (.error (KeyService.unanswered noAnswer))
  | some request =>
      let answer ← Wire.send request
      pure ((readAnswer answer).mapError .provider)

end KeyCustody.Cloud.ObjectStore
