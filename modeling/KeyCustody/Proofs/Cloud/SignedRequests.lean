import KeyCustody.Cloud.Scripted
import KeyCustody.Proofs.Cloud.HeaderValues
import KeyCustody.Proofs.Cloud.Requests
import KeyCustody.Proofs.Url.Endpoint

namespace KeyCustody.Cloud.KeyService

/-! # What is signed and what is sent

A request to the key service is signed for the path of its operation, and is sent to that path
below the service's address. Everything else that goes into its signature is its own. So the path
that is signed is the one that is sent exactly if the address has no path. -/

variable {account : Account} {date : String} {operation : Operation} {request : Http.Request}

/-- The operation by which the key service answers a call. -/
def operationOf : Service.Call → Option Operation
  | .tagPage query => some (tagPage query)
  | .listKeys spec => some (listKeys spec)
  | .setRotation switch keyId token => some (setRotation switch keyId token)
  | .setKey switch keyId token => some (setKey switch keyId token)
  | .createKey name => some (createKey name)
  | .listAliases => some listAliases
  | .createAlias keyId name => some (createAlias keyId name)
  | .getObject _ => none

def Operation.octets (operation : Operation) : Bytes :=
  (operation.body.map fun body => Text.octets body.compact).getD []

/-- A request whose voucher is the signature over its method, a path, its headers and its body. Its
headers name the host of its URL, the media type, the date and the project. -/
structure SignedAs (account : Account) (path host date : String) (request : Http.Request) :
    Prop where
  place : request.url.hostAndPort? = some host
  headers : request.headers =
    [⟨"host", host⟩, ⟨"content-type", "application/json"⟩, ⟨"X-Sdk-Date", date⟩,
      ⟨"X-Project-Id", account.cloud.projectId⟩]
  voucher : request.voucher =
    .digest (Signing.sign account.credentials request.method path request.headers request.body
      date)

/-- How a request comes from the URL and host that are read for an operation. -/
structure Prepared (account : Account) (date : String) (operation : Operation) (url : Url)
    (host : String) (request : Http.Request) : Prop where
  address : Url.parse (account.cloud.serviceUrl ++ path account operation) = .ok url
  place : url.hostAndPort? = some host
  values : ∀ header ∈ signedHeaders account host date, Http.isSendable header.value
  voucher : Http.isSendable (Signing.sign account.credentials operation.method
    (path account operation) (signedHeaders account host date) operation.octets date).text
  web : isWeb url
  request : request = ⟨operation.method, anonymous url, signedHeaders account host date,
    .digest (Signing.sign account.credentials operation.method (path account operation)
      (signedHeaders account host date) operation.octets date), operation.octets⟩

theorem prepare_eq_ok_iff :
    prepare account date operation = .ok request ↔
      ∃ url host, Prepared account date operation url host request := by
  constructor
  · intro prepared
    rw [prepare] at prepared
    dsimp only at prepared
    split at prepared
    · cases prepared
    rename_i url address
    split at prepared
    · cases prepared
    rename_i host place
    rw [sentHeaders_eq_signedHeaders place] at prepared
    split at prepared
    · cases prepared
    rename_i sendable
    split at prepared
    · cases prepared
    rename_i web
    rw [not_or, not_not, not_not] at sendable
    rw [not_not] at web
    exact ⟨url, host, address, place, List.all_eq_true.mp sendable.1, sendable.2, web,
      (Except.ok.inj prepared).symm⟩
  · rintro ⟨url, host, prepared⟩
    have sendable := not_or.mpr ⟨not_not.mpr (List.all_eq_true.mpr prepared.values),
      not_not.mpr prepared.voucher⟩
    rw [prepare]
    dsimp only
    rw [prepared.address]
    dsimp only
    rw [prepared.place]
    dsimp only
    rw [sentHeaders_eq_signedHeaders prepared.place, prepared.request]
    exact (if_neg sendable).trans (if_neg (not_not.mpr prepared.web))

theorem Prepared.signedAs {url : Url} {host : String}
    (prepared : Prepared account date operation url host request) :
    SignedAs account (path account operation) host date request := by
  rw [prepared.request]
  exact ⟨(hostAndPort?_anonymous url).trans prepared.place, rfl, rfl⟩

theorem Prepared.target {url : Url} {host : String}
    (prepared : Prepared account date operation url host request) :
    request.url.target = url.path ++ Url.marked "?" url.query := by
  rw [prepared.request]
  rfl

/-- The path of an operation after its first slash. -/
def pathChars (account : Account) (operation : Operation) : List Char :=
  "v1.0".toList ++ '/' :: (account.cloud.projectId.toList ++
    '/' :: ("kms".toList ++ '/' :: operation.name.toList))

theorem toList_path (account : Account) (operation : Operation) :
    (path account operation).toList = '/' :: pathChars account operation := by
  have version : "/v1.0/".toList = '/' :: ("v1.0".toList ++ ['/']) := by decide
  have service : "/kms/".toList = '/' :: ("kms".toList ++ ['/']) := by decide
  rw [path, String.toList_append, String.toList_append, String.toList_append, version, service]
  simp [pathChars]

theorem literal_pathChars (project : Url.PlainName account.cloud.projectId.toList)
    (name : Url.Literal operation.name.toList) : Url.Literal (pathChars account operation) := by
  have version : Url.Literal "v1.0".toList := by decide +kernel
  have service : Url.Literal "kms".toList := by decide +kernel
  simp only [pathChars, Url.literal_append_iff]
  exact ⟨version, project.literal, service, name⟩

def operationNames : List String :=
  ["resource_instances/action", "list-keys", "enable-key-rotation", "disable-key-rotation",
    "enable-key", "disable-key", "create-key", "aliases"]

theorem name_mem_operationNames {call : Service.Call}
    (performed : operationOf call = some operation) : operation.name ∈ operationNames := by
  cases call with
  | getObject location => cases performed
  | setRotation switch keyId token =>
      cases performed
      cases switch <;> simp [setRotation, post, operationNames]
  | setKey switch keyId token =>
      cases performed
      cases switch <;> simp [setKey, post, operationNames]
  | tagPage query => cases performed; simp [tagPage, post, operationNames]
  | listKeys spec => cases performed; simp [listKeys, post, operationNames]
  | createKey name => cases performed; simp [createKey, post, operationNames]
  | listAliases => cases performed; simp [listAliases, operationNames]
  | createAlias keyId name => cases performed; simp [createAlias, post, operationNames]

theorem literal_of_mem_operationNames :
    ∀ name ∈ operationNames, Url.Literal name.toList := by decide +kernel

theorem isSpecial_of_isWeb {url : Url} (web : isWeb url) : Url.isSpecial url.scheme := by
  rw [isWeb, Bool.or_eq_true, decide_eq_true_iff, decide_eq_true_iff] at web
  rcases web with scheme | scheme <;> rw [scheme] <;> decide

/-- Requests can be sent to the service's address: it is a web address with a host, and headers may
hold the name of the host and that of who asks. -/
structure Reached (account : Account) (own : Url) (host : String) : Prop where
  address : Url.parse (account.cloud.serviceUrl ++ "/") = .ok own
  web : isWeb own
  place : own.hostAndPort? = some host
  named : Http.isSendable host
  access : Http.isSendable account.credentials.accessKey

/-- An endpoint that is configured counts without the slashes at its end. -/
theorem serviceUrl_of_configured {endpoint : Url.Endpoint}
    (configured : account.cloud.kmsEndpoint = some endpoint.text) :
    account.cloud.serviceUrl = endpoint.trimmed.text := by
  rw [CloudSettings.serviceUrl, configured]
  exact endpoint.trimSlashes_text

section

variable {endpoint : Url.Endpoint} (given : account.cloud.serviceUrl = endpoint.text)
include given

theorem serviceUrl_append_path :
    account.cloud.serviceUrl ++ path account operation =
      String.ofList (endpoint.chars ++ '/' :: pathChars account operation) := by
  rw [given, ← @String.ofList_toList (path account operation), toList_path, String.ofList_append]
  rfl

theorem serviceUrl_append_slash :
    account.cloud.serviceUrl ++ "/" = String.ofList (endpoint.chars ++ ['/']) := by
  rw [given, String.ofList_append]
  rfl

/-- The URL of an operation is the endpoint's own, with the path of the operation after its own
path. -/
theorem parse_serviceUrl_iff (literal : Url.Literal (pathChars account operation)) :
    ∃ front : String, (Url.Literal endpoint.base → front = String.ofList endpoint.base) ∧
      (∀ own, Url.parse (account.cloud.serviceUrl ++ "/") = .ok own → isWeb own →
        own.path = front ++ "/" ∧ own.query = none) ∧
      ∀ url, isWeb url →
        (Url.parse (account.cloud.serviceUrl ++ path account operation) = .ok url ↔
          ∃ own, Url.parse (account.cloud.serviceUrl ++ "/") = .ok own ∧
            url = { own with path := front ++ path account operation }) := by
  obtain ⟨front, kept, own, below⟩ := endpoint.parse_eq_ok_iff
  have slash : String.ofList (front ++ ['/']) = String.ofList front ++ "/" := String.ofList_append
  have whole : String.ofList (front ++ '/' :: pathChars account operation) =
      String.ofList front ++ path account operation := by
    rw [← toList_path, String.ofList_append, String.ofList_toList]
  rw [serviceUrl_append_path given, serviceUrl_append_slash given]
  refine ⟨String.ofList front, fun base => ?_, fun url alone web => ?_, fun url web => ?_⟩
  · rw [kept base]
  · rw [← slash]
    exact own url alone (isSpecial_of_isWeb web)
  · rw [← whole]
    exact below _ literal url (isSpecial_of_isWeb web)

/-- A prepared request is sent to the endpoint, and below it. -/
theorem Prepared.reached {seconds : Int} {url : Url} {host : String}
    (project : Url.PlainName account.cloud.projectId.toList)
    (name : Url.Literal operation.name.toList)
    (prepared : Prepared account (Calendar.timestamp seconds) operation url host request) :
    ∃ own front, Reached account own host ∧ own.path = front ++ "/" ∧
      request.url.target = front ++ path account operation ∧
      (Url.Literal endpoint.base → front = String.ofList endpoint.base) := by
  obtain ⟨front, kept, alone, below⟩ :=
    parse_serviceUrl_iff given (literal_pathChars project name)
  obtain ⟨own, address, rfl⟩ := (below url prepared.web).mp prepared.address
  obtain ⟨ownPath, noQuery⟩ := alone own address prepared.web
  have named := (isSendable_signedHeaders_iff seconds project).mp prepared.values
  have access := (isSendable_sign_iff _ _ _ _ _ _).mp prepared.voucher
  refine ⟨own, front, ⟨address, prepared.web, prepared.place, named, access⟩, ownPath, ?_, kept⟩
  rw [prepared.target, noQuery]
  exact String.append_empty

theorem Reached.exists_prepared {own : Url} {host : String} (reached : Reached account own host)
    (project : Url.PlainName account.cloud.projectId.toList)
    (name : Url.Literal operation.name.toList) (seconds : Int) :
    ∃ request, prepare account (Calendar.timestamp seconds) operation = .ok request := by
  obtain ⟨front, -, -, below⟩ := parse_serviceUrl_iff given (literal_pathChars project name)
  have values := (isSendable_signedHeaders_iff seconds project).mpr reached.named
  have voucher := (isSendable_sign_iff account operation.method (path account operation) host
    (Calendar.timestamp seconds) operation.octets).mpr reached.access
  have address := (below { own with path := front ++ path account operation } reached.web).mpr
    ⟨own, reached.address, rfl⟩
  exact ⟨_, prepare_eq_ok_iff.mpr
    ⟨_, host, address, reached.place, values, voucher, reached.web, rfl⟩⟩

end

theorem perform_prepares (account : Account) (operation : Operation) :
    Wire.Ensures (perform account operation) fun sent _ => ∃ seconds : Int,
      sent.map Exchange.question =
        (prepare account (Calendar.timestamp seconds) operation).toOption.toList := by
  rw [perform, Wire.ensures_bind, Wire.ensures_host]
  intro now
  split
  · rename_i cause unprepared
    exact ⟨Instant.seconds now, by rw [unprepared]; rfl⟩
  · rename_i request prepared
    exact fun answer => ⟨Instant.seconds now, by rw [prepared]; rfl⟩

/-- A call is answered by one request at most, the one that is prepared for its operation. -/
theorem answerCall_prepares {call : Service.Call} (performed : operationOf call = some operation) :
    Wire.Ensures (answerCall account call) fun sent _ => ∃ seconds : Int,
      sent.map Exchange.question =
        (prepare account (Calendar.timestamp seconds) operation).toOption.toList := by
  cases call with
  | getObject location => cases performed
  | _ =>
      cases performed
      exact (Wire.ensures_map _ _).mpr (perform_prepares account _)

theorem eq_ok_of_mem {sent : List Sent} {prepared : Except Error Http.Request} {one : Sent}
    (requests : sent.map Exchange.question = prepared.toOption.toList) (member : one ∈ sent) :
    prepared = .ok one.question := by
  have asked : one.question ∈ sent.map Exchange.question := List.mem_map_of_mem member
  rw [requests] at asked
  cases prepared with
  | error cause => cases asked
  | ok request => rw [List.mem_singleton.mp asked]

/-- An account whose key service has an endpoint of its own. -/
def sample (endpoint : String) : Account :=
  ⟨{ region := "r1", projectId := "p1", kmsEndpoint := some endpoint }, ⟨"a", "s"⟩⟩

def rootEndpoint : Url.Endpoint where
  scheme := "http".toList
  authority := "h:8080".toList
  base := ['/']
  schemeStart := ⟨'h', rfl, by decide⟩
  schemeChars := List.all_eq_true.mp (by decide)
  authorityNamed := by decide
  authorityChars := by simp [Url.endsAuthority, Url.isSlash, Url.isDropped]
  rooted := .inr ⟨[], rfl⟩
  baseChars := by simp [Url.isDropped]

/-- The server that the account speaks to answers every operation. -/
theorem sample_answers {operation : Operation} {read : Json.Reader α} {url : Url}
    (address : Url.parse ("http://h:8080" ++ path (sample "http://h:8080/") operation) = .ok url)
    (place : url.hostAndPort? = some "h:8080") (scheme : url.scheme = "http")
    (answer : Http.Answer) :
    ∃ request, requestsOf ((ask (sample "http://h:8080/") operation read).run
      (Scripted.world "h:8080") ⟨[answer], 0, 0⟩).exchanges = [⟨request, answer⟩] := by
  have project : Url.PlainName (sample "http://h:8080/").cloud.projectId.toList := by decide +kernel
  have values := (isSendable_signedHeaders_iff (Instant.seconds 0) project).mpr
    (by decide : Http.isSendable "h:8080")
  have voucher := (isSendable_sign_iff (sample "http://h:8080/") operation.method
    (path (sample "http://h:8080/") operation) "h:8080" (Calendar.timestamp (Instant.seconds 0))
    operation.octets).mpr (by decide)
  have service : (sample "http://h:8080/").cloud.serviceUrl = "http://h:8080" := by decide +kernel
  obtain ⟨request, prepared, sentTo⟩ : ∃ request, prepare (sample "http://h:8080/")
      (Calendar.timestamp (Instant.seconds 0)) operation = .ok request ∧
        request.url = anonymous url :=
    ⟨_, prepare_eq_ok_iff.mpr ⟨url, "h:8080", service ▸ address, place, values, voucher,
      by simp [isWeb, scheme], rfl⟩, rfl⟩
  refine ⟨request, (requestsOf_run_ask (Scripted.world "h:8080") ⟨[answer], 0, 0⟩ prepared).trans ?_⟩
  have reached : Scripted.reaches "h:8080" request := by
    rw [Scripted.reaches, sentTo, hostAndPort?_anonymous, place]
    simp [anonymous, scheme]
  simp [Scripted.world, reached, Service.Scripted.hostReply]

/-- A call to the key service is answered by one request, or by none if its address is none that
requests can be sent to. The request has the method and the body of its operation, and is signed
with these, with its own headers, and for the path of its operation. It is sent to that path after
the path `front` that the endpoint has of its own. So it is signed for the path it is sent to if and
only if the endpoint has no path. -/
theorem signed_path_sent_iff_no_own_path (account : Account) (endpoint : Url.Endpoint)
    (given : account.cloud.serviceUrl = endpoint.text)
    (project : Url.PlainName account.cloud.projectId.toList) (call : Service.Call)
    (operation : Operation) (performed : operationOf call = some operation)
    (world : World Wire.Question Wire.Question.Reply σ) (state : σ) :
    let sent := requestsOf ((answerCall account call).run world state).exchanges
    ((∃ own host, Reached account own host) ↔ ∃ one, sent = [one]) ∧
    ∀ one ∈ sent,
      let request := one.question
      request.method = operation.method ∧ request.body = operation.octets ∧
      ∃ own host, Reached account own host ∧
        (∃ date, SignedAs account (path account operation) host date request) ∧
        ∃ front, own.path = front ++ "/" ∧ request.url.target = front ++ path account operation ∧
          (request.url.target = path account operation ↔ front = "") ∧
          (Url.Literal endpoint.base → front = String.ofList endpoint.base) := by
  have name := literal_of_mem_operationNames _ (name_mem_operationNames performed)
  obtain ⟨seconds, requests⟩ := (answerCall_prepares performed).holds world state
  have prepared_of_mem {one} (member : one ∈ requestsOf _) : ∃ url host,
      Prepared account (Calendar.timestamp seconds) operation url host one.question :=
    prepare_eq_ok_iff.mp (eq_ok_of_mem requests member)
  intro sent
  refine ⟨⟨fun ⟨own, host, reached⟩ => ?_, fun ⟨one, only⟩ => ?_⟩, fun one member => ?_⟩
  · obtain ⟨request, prepared⟩ := reached.exists_prepared given project name seconds
    rw [prepared] at requests
    obtain ⟨one, only, -⟩ := List.map_eq_singleton_iff.mp requests
    exact ⟨one, only⟩
  · have member : one ∈ sent := only ▸ List.mem_singleton_self one
    obtain ⟨url, host, prepared⟩ := prepared_of_mem member
    obtain ⟨own, front, reached, -⟩ := prepared.reached given project name
    exact ⟨own, host, reached⟩
  · obtain ⟨url, host, prepared⟩ := prepared_of_mem member
    obtain ⟨own, front, reached, ownPath, target, kept⟩ := prepared.reached given project name
    have made := prepared.request
    have alone : one.question.url.target = path account operation ↔ front = "" := by
      rw [target, ← String.toList_inj, ← String.toList_inj]
      simp
    exact ⟨by rw [made], by rw [made], own, host, reached, ⟨_, prepared.signedAs⟩, front, ownPath,
      target, alone, kept⟩

/-- An endpoint that ends in a slash has no path of its own. -/
theorem aliases_signed_as_sent :
    (sample "http://h:8080/").cloud.serviceUrl = rootEndpoint.trimmed.text ∧
      Url.PlainName (sample "http://h:8080/").cloud.projectId.toList ∧
      operationOf .listAliases = some listAliases ∧
      ∃ one, requestsOf ((answerCall (sample "http://h:8080/") .listAliases).run
          (Scripted.world "h:8080") ⟨[], 0, 0⟩).exchanges = [one] ∧
        one.question.url.target = "/v1.0/p1/kms/aliases" ∧
        ∃ host date,
          SignedAs (sample "http://h:8080/") "/v1.0/p1/kms/aliases" host date one.question := by
  have given : (sample "http://h:8080/").cloud.serviceUrl = rootEndpoint.trimmed.text :=
    serviceUrl_of_configured (by decide)
  have project : Url.PlainName (sample "http://h:8080/").cloud.projectId.toList := by decide +kernel
  have reached : Reached (sample "http://h:8080/")
      ⟨"http", some ⟨"", "h", some 8080⟩, "/", none, none⟩ "h:8080" :=
    ⟨by decide +kernel, by decide, by decide +kernel, by decide, by decide⟩
  obtain ⟨answered, requests⟩ :=
    signed_path_sent_iff_no_own_path (sample "http://h:8080/") rootEndpoint.trimmed given
      project .listAliases listAliases rfl (Scripted.world "h:8080") ⟨[], 0, 0⟩
  obtain ⟨one, only⟩ := answered.mp ⟨_, _, reached⟩
  obtain ⟨-, -, own, host, -, signed, front, -, target, -, kept⟩ :=
    requests one (only ▸ List.mem_singleton_self one)
  have rootless : front = "" := kept (by decide +kernel)
  rw [rootless] at target
  exact ⟨given, project, rfl, one, only, target, host, signed⟩

/-- The path of an endpoint is left out of the signature, and the signer does not put it back. -/
theorem path_of_endpoint_not_signed :
    Settings.validate { cloud := (sample "http://h:8080/base").cloud } = .ok () ∧
      ∃ one, requestsOf ((answerCall (sample "http://h:8080/base") .listAliases).run
          (Scripted.world "h:8080") ⟨[], 0, 0⟩).exchanges = [one] ∧
        (∃ date, SignedAs (sample "http://h:8080/base") "/v1.0/p1/kms/aliases" "h:8080" date
          one.question) ∧
        one.question.url.target = "/base/v1.0/p1/kms/aliases" ∧
        Signing.canonicalPath "/v1.0/p1/kms/aliases" ≠
          Signing.canonicalPath one.question.url.target := by
  obtain ⟨seconds, requests⟩ :=
    (@answerCall_prepares (sample "http://h:8080/base") listAliases .listAliases rfl).holds
      (Scripted.world "h:8080") ⟨[], 0, 0⟩
  have project : Url.PlainName (sample "http://h:8080/base").cloud.projectId.toList := by
    decide +kernel
  have values := (isSendable_signedHeaders_iff seconds project).mpr
    (by decide : Http.isSendable "h:8080")
  have voucher := (isSendable_sign_iff (sample "http://h:8080/base") listAliases.method
    "/v1.0/p1/kms/aliases" "h:8080" (Calendar.timestamp seconds) listAliases.octets).mpr (by decide)
  have prepared : Prepared (sample "http://h:8080/base") (Calendar.timestamp seconds) listAliases
      ⟨"http", some ⟨"", "h", some 8080⟩, "/base/v1.0/p1/kms/aliases", none, none⟩ "h:8080" _ :=
    ⟨by decide +kernel, by decide +kernel, values, voucher, by decide, rfl⟩
  rw [prepare_eq_ok_iff.mpr ⟨_, _, prepared⟩] at requests
  obtain ⟨one, only, made⟩ := List.map_eq_singleton_iff.mp requests
  rw [← made] at prepared
  have target : one.question.url.target = "/base/v1.0/p1/kms/aliases" := prepared.target
  refine ⟨by decide +kernel, one, only, ⟨_, prepared.signedAs⟩, target, ?_⟩
  rw [target]
  decide +kernel

end KeyCustody.Cloud.KeyService
