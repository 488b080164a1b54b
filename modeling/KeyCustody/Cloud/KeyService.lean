import KeyCustody.Calendar
import KeyCustody.Cloud.Wire
import KeyCustody.Service.Answer
import KeyCustody.Settings
import KeyCustody.Url.Reader

namespace KeyCustody.Cloud

/-! # The key service

Each call is one signed request. An answer with a status of 300 or more is a refusal; what
it says is read from its body, whatever that holds. -/

/-- Where requests go and under whose name. -/
structure Account where
  cloud : CloudSettings
  credentials : Signing.Credentials
  deriving DecidableEq, Repr

namespace KeyService

structure Operation where
  method : String
  name : String
  body : Option Json

def path (account : Account) (operation : Operation) : String :=
  "/v1.0/" ++ account.cloud.projectId ++ "/kms/" ++ operation.name

def mediaType : String := "application/json"

/-- The headers that are signed. -/
def signedHeaders (account : Account) (host date : String) : List Signing.Header :=
  [⟨"host", host⟩, ⟨"content-type", mediaType⟩, ⟨"X-Sdk-Date", date⟩,
    ⟨"X-Project-Id", account.cloud.projectId⟩]

/-- The headers that a request is sent with. Three are set on it, besides its voucher, and ahead of
them stands the host that its URL names. -/
def sentHeaders (account : Account) (url : Url) (date : String) : List Signing.Header :=
  (url.hostAndPort?.map fun host => ⟨"host", host⟩).toList ++
    [⟨"content-type", mediaType⟩, ⟨"X-Sdk-Date", date⟩,
      ⟨"X-Project-Id", account.cloud.projectId⟩]

/-- The URL without who asks. -/
def anonymous (url : Url) : Url :=
  { url with authority := url.authority.map fun authority => { authority with user := "" } }

def unanswered (detail : String) : Error := .provider (.unanswered detail)

def isWeb (url : Url) : Bool := url.scheme = "http" || url.scheme = "https"

/-- The request for an operation, signed at a date. -/
def prepare (account : Account) (date : String) (operation : Operation) :
    Except Error Http.Request :=
  let path := path account operation
  match Url.parse (account.cloud.serviceUrl ++ path) with
  | .error fault => .error (.transport ("invalid kms url: " ++ fault.message))
  | .ok url =>
      match url.hostAndPort? with
      | none => .error (.transport ("url has no host: " ++ url.text))
      | some host =>
          let body := (operation.body.map fun body => Text.octets body.compact).getD []
          let authorization := Signing.sign account.credentials operation.method path
            (signedHeaders account host date) body date
          let headers := sentHeaders account (anonymous url) date
          if ¬(headers.all fun header => Http.isSendable header.value) ∨
              ¬Http.isSendable authorization.text then
            .error (unanswered "builder error")
          else if ¬isWeb url then
            .error (unanswered ("builder error for url (" ++ (anonymous url).text ++ ")"))
          else .ok ⟨operation.method, anonymous url, headers, .digest authorization, body⟩

open Json (Reader Slot)

/-- What a refusal says about its cause. -/
structure Cause where
  code : Option String
  detail : Option String
  deriving DecidableEq, Repr

def Cause.fields : List (Slot Cause) :=
  [.may "error_code" (Reader.optional Reader.text) fun value cause =>
      { cause with code := value },
    .may "error_msg" (Reader.optional Reader.text) fun value cause =>
      { cause with detail := value }]

/-- The body of a refusal: a cause of its own, and one that lies within it. -/
structure Refusal where
  inner : Option Cause
  outer : Cause
  deriving DecidableEq, Repr

def Refusal.blank : Refusal := ⟨none, ⟨none, none⟩⟩

def Refusal.fields : List (Slot Refusal) :=
  [.may "error" (Reader.optional (Reader.record Cause.fields ⟨none, none⟩)) fun value refusal =>
      { refusal with inner := value },
    .may "error_code" (Reader.optional Reader.text) fun value refusal =>
      { refusal with outer := { refusal.outer with code := value } },
    .may "error_msg" (Reader.optional Reader.text) fun value refusal =>
      { refusal with outer := { refusal.outer with detail := value } }]

def Refusal.reader : Reader Refusal := Reader.record Refusal.fields .blank

/-- The cause that counts. The inner one does if it is there. -/
def Refusal.cause (refusal : Refusal) : Cause := refusal.inner.getD refusal.outer

/-- The error that a refusal is. Without a message of its own the body is the message. -/
def refused (status : Nat) (requestId : Option String) (body : Bytes) : ProviderError :=
  let refusal := (Refusal.reader.run body).toOption.getD .blank
  let whole := String.ofList (Text.trim (Text.ofOctetsLossy body).toList)
  ⟨some status, refusal.cause.code, refusal.cause.detail.getD whole, requestId⟩

/-- The status from which on an answer is a refusal. -/
def refusalStatus : Nat := 300

def requestId (head : Http.Head) : Option String := head.value? "X-Request-Id"

/-- The body of an answer to a request for a URL. -/
def readAnswer (url : Url) : Http.Answer → Except ProviderError Bytes
  | .lost => .error (.unanswered ("error sending request for url (" ++ url.text ++ ")"))
  | .cut head =>
      .error { ProviderError.unanswered "error decoding response body" with
        requestId := requestId head }
  | .whole head body =>
      if refusalStatus ≤ head.status then .error (refused head.status (requestId head) body)
      else .ok body

/-- Sends the request for an operation and gives the body of its answer. -/
def perform (account : Account) (operation : Operation) : Wire (Except Error Bytes) := do
  let now ← Wire.host .now
  match prepare account (Calendar.timestamp (Instant.seconds now)) operation with
  | .error error => pure (.error error)
  | .ok request =>
      let answer ← Wire.send request
      pure ((readAnswer request.url answer).mapError .provider)

def decode (read : Reader α) (body : Bytes) : Except Error α :=
  (read.run body).mapError .unreadable

def post (name : String) (members : List (String × String)) : Operation :=
  ⟨"POST", name,
    some (.object (members.map fun (name, value) => (name, .text value)))⟩

def tagPage (query : Service.TagQuery) : Operation :=
  post "resource_instances/action"
    [("action", query.action), ("offset", query.offset), ("limit", query.limit)]

def listKeys (spec : String) : Operation := post "list-keys" [("key_spec", spec)]

def setRotation (switch : Service.Switch) (keyId token : String) : Operation :=
  post (match switch with
    | .on => "enable-key-rotation"
    | .off => "disable-key-rotation")
    [("key_id", keyId), ("sequence", token)]

def setKey (switch : Service.Switch) (keyId token : String) : Operation :=
  post (match switch with
    | .on => "enable-key"
    | .off => "disable-key")
    [("key_id", keyId), ("sequence", token)]

def createKey (name : String) : Operation := post "create-key" [("key_alias", name)]

def listAliases : Operation := ⟨"GET", "aliases", none⟩

def createAlias (keyId name : String) : Operation :=
  post "aliases" [("key_id", keyId), ("alias", name)]

/-- Performs an operation whose answer is read by `read`. -/
def ask (account : Account) (operation : Operation) (read : Reader α) :
    Wire (Except Error α) := do
  pure ((← perform account operation).bind (decode read))

/-- Performs an operation whose answer says no more than that it succeeded. -/
def tell (account : Account) (operation : Operation) : Wire (Except Error Unit) := do
  pure ((← perform account operation).map fun _ => ())

end KeyService

end KeyCustody.Cloud
