import KeyCustody.Program
import KeyCustody.Proofs.Cloud.Requests

namespace KeyCustody

/-! # Requests under a session

Settings and credentials pass their checks one after another before anything is sent. Every
request of a job is made for the one account that the session gives. -/

open CommandLine (Job)
open Cloud (Wire Wire.Question Wire.Question.Reply)

/-- Something that has to be in order, with the error for where it is not. -/
structure Check where
  fails : Bool
  error : Error

/-- The error of the first check that fails. -/
def firstFailure (checks : List Check) : Option Error :=
  (checks.find? Check.fails).map Check.error

theorem firstFailure_cons (check : Check) (later : List Check) :
    firstFailure (check :: later) = if check.fails then some check.error else firstFailure later := by
  rw [firstFailure, List.find?_cons]
  cases check.fails <;> rfl

theorem firstFailure_append (first second : List Check) :
    firstFailure (first ++ second) = (firstFailure first).or (firstFailure second) := by
  rw [firstFailure, List.find?_append, Option.map_or]
  rfl

theorem firstFailure_eq_none_iff {checks : List Check} :
    firstFailure checks = none ↔ ∀ check ∈ checks, ¬ check.fails := by
  rw [firstFailure, Option.map_eq_none_iff, List.find?_eq_none]

/-- A setting that a variable may replace: the value of the variable, or what is stored where the
variable is not set or empty. -/
inductive Chosen (host : Host) (name stored : String) : String → Prop where
  | variable (value : String) (set : host.environment name = some value) (filled : value ≠ "") :
      Chosen host name stored value
  | stored (unset : host.environment name = none ∨ host.environment name = some "") :
      Chosen host name stored stored

namespace Host

variable {host : Host} {name : String}

theorem setting?_eq_some_iff {value : String} :
    host.setting? name = some value ↔ host.environment name = some value ∧ value ≠ "" := by
  rw [setting?, Option.filter_eq_some_iff, bne_iff_ne]

theorem setting?_eq_none_iff :
    host.setting? name = none ↔
      host.environment name = none ∨ host.environment name = some "" := by
  rw [setting?]
  cases host.environment name with
  | none => simp
  | some value => simp [Option.filter_some]

theorem chosen_setting (host : Host) (name stored : String) :
    Chosen host name stored ((host.setting? name).getD stored) := by
  cases found : host.setting? name with
  | none => exact .stored (setting?_eq_none_iff.mp found)
  | some value =>
      obtain ⟨set, filled⟩ := setting?_eq_some_iff.mp found
      exact .variable value set filled

end Host

namespace Settings

def checks (settings : Settings) : List Check :=
  let cloud := settings.cloud
  [⟨Text.isAllBlank cloud.region, .settings (.missingField "region")⟩,
    ⟨Text.isAllBlank cloud.projectId, .settings (.missingField "project_id")⟩,
    ⟨Text.isAllBlank cloud.domain && cloud.kmsEndpoint.isNone,
      .settings (.invalidValue "domain" "empty domain without a kms_endpoint")⟩,
    ⟨cloud.timeout == 0, .settings (.invalidValue "timeout_secs" "must be greater than zero")⟩]

theorem validate_eq (settings : Settings) :
    settings.validate = (firstFailure settings.checks).elim (.ok ()) .error := by
  simp only [validate, checks, firstFailure_cons, Bool.and_eq_true, beq_iff_eq]
  split_ifs <;> rfl

end Settings

namespace Signing.Credentials

def checks (host : Host) : List Check :=
  [accessKeyName, secretKeyName].map fun name =>
    ⟨(host.setting? name).isNone, .settings (.missingField name)⟩

theorem ofHost_reads (host : Host) :
    match firstFailure (checks host) with
    | some cause => ofHost host = .error cause
    | none => ∃ credentials, ofHost host = .ok credentials ∧
        host.setting? accessKeyName = some credentials.accessKey ∧
        host.setting? secretKeyName = some credentials.secretKey := by
  rw [checks, List.map_cons, List.map_cons, firstFailure_cons, firstFailure_cons, ofHost, require,
    require]
  cases host.setting? accessKeyName with
  | none => rfl
  | some accessKey =>
      cases host.setting? secretKeyName with
      | none => rfl
      | some secretKey => exact ⟨⟨accessKey, secretKey⟩, rfl, rfl, rfl⟩

end Signing.Credentials

namespace Session

/-- The error of the first thing that keeps a session from being opened: the settings cannot be
read, or a check fails. -/
def firstFault (host : Host) (path : Option String) : Option Error :=
  match Settings.load host path with
  | .error cause => some cause
  | .ok settings => firstFailure (settings.checks ++ Signing.Credentials.checks host)

/-- The session has the stored settings but for the region and the project, which variables may
replace and which are not blank. Its credentials are values of variables. -/
structure Given (session : Session) (host : Host) (stored : Settings) : Prop where
  settings : session.settings = stored.override host
  region : Chosen host Settings.regionName stored.cloud.region session.settings.cloud.region
  projectId :
    Chosen host Settings.projectName stored.cloud.projectId session.settings.cloud.projectId
  regionSolid : ¬ Text.isAllBlank session.settings.cloud.region
  projectSolid : ¬ Text.isAllBlank session.settings.cloud.projectId
  accessKey : host.environment Signing.Credentials.accessKeyName =
    some session.credentials.accessKey ∧ session.credentials.accessKey ≠ ""
  secretKey : host.environment Signing.Credentials.secretKeyName =
    some session.credentials.secretKey ∧ session.credentials.secretKey ≠ ""

theorem open_of_load_eq_ok {host : Host} {path : Option String} {settings : Settings}
    (loaded : Settings.load host path = .ok settings) :
    Session.open host path = settings.validate.bind fun _ =>
      (Signing.Credentials.ofHost host).bind fun credentials => .ok ⟨settings, credentials⟩ := by
  rw [Session.open, loaded]
  rfl

theorem given_of_passed {host : Host} {stored : Settings} {credentials : Signing.Credentials}
    (passed : firstFailure (stored.override host).checks = none)
    (access : host.setting? Signing.Credentials.accessKeyName = some credentials.accessKey)
    (secret : host.setting? Signing.Credentials.secretKeyName = some credentials.secretKey) :
    Given ⟨stored.override host, credentials⟩ host stored where
  settings := rfl
  region := host.chosen_setting _ _
  projectId := host.chosen_setting _ _
  regionSolid := firstFailure_eq_none_iff.mp passed _ (List.mem_cons_self ..)
  projectSolid := firstFailure_eq_none_iff.mp passed _ (List.mem_cons_of_mem _ (List.mem_cons_self ..))
  accessKey := Host.setting?_eq_some_iff.mp access
  secretKey := Host.setting?_eq_some_iff.mp secret

theorem open_cases (host : Host) (path : Option String) :
    match firstFault host path with
    | some error => Session.open host path = .error error
    | none => ∃ session stored, Session.open host path = .ok session ∧
        Settings.ofFile host path = .ok stored ∧ session.Given host stored := by
  -- Nothing is checked before the file is read, so what is wrong with the file comes first.
  cases read : Settings.ofFile host path with
  | error cause =>
      have unread : Settings.load host path = .error cause := by rw [Settings.load, read]; rfl
      rw [firstFault, Session.open, unread]
      rfl
  | ok stored =>
      have loaded : Settings.load host path = .ok (stored.override host) := by
        rw [Settings.load, read]
        rfl
      -- The credentials are not looked at before the settings have passed.
      have reads := Signing.Credentials.ofHost_reads host
      rw [firstFault, loaded]
      dsimp only
      rw [open_of_load_eq_ok loaded, Settings.validate_eq, firstFailure_append]
      cases passed : firstFailure (stored.override host).checks with
      | some cause => rfl
      | none =>
          rw [Option.none_or]
          cases opened : firstFailure (Signing.Credentials.checks host) with
          | some cause =>
              rw [opened] at reads
              rw [reads]
              rfl
          | none =>
              rw [opened] at reads
              obtain ⟨credentials, found, access, secret⟩ := reads
              rw [found]
              exact ⟨_, _, rfl, rfl, given_of_passed passed access secret⟩

end Session

namespace Cloud

/-- A request that an account gives: one to the key service with the account's address, project
and signature, or one to the object store under the account's access key. The latter is signed
for the object's own region. -/
inductive SentUnder (account : Account) : Http.Request → Prop where
  | service (operation : KeyService.Operation) (url : Url) (host date : String) (body : Bytes)
      (address :
        Url.parse (account.cloud.serviceUrl ++ KeyService.path account operation) = .ok url) :
      SentUnder account
        ⟨operation.method, KeyService.anonymous url, KeyService.signedHeaders account host date,
          .digest (Signing.sign account.credentials operation.method
            (KeyService.path account operation) (KeyService.signedHeaders account host date) body
            date), body⟩
  | object (location : ObjectLocation) (url : Url) (headers : List Signing.Header) (day : String)
      (address : ObjectStore.urlOf account.cloud location = some url) :
      SentUnder account
        ⟨"GET", url, headers, .scoped ⟨account.credentials.accessKey, day, location.region, "s3"⟩,
          []⟩

def SendsUnder (account : Account) (program : Wire α) : Prop :=
  Wire.Ensures program fun sent _ => ∀ one ∈ sent, SentUnder account one.question

variable {account : Account}

theorem sentUnder_of_unsent : ∀ one ∈ ([] : List Sent), SentUnder account one.question :=
  fun _ member => absurd member List.not_mem_nil

namespace KeyService

theorem sentUnder_of_prepare {date : String} {operation : Operation} {request : Http.Request}
    (prepared : prepare account date operation = .ok request) : SentUnder account request := by
  simp only [prepare] at prepared
  split at prepared
  · cases prepared
  · rename_i url address
    split at prepared
    · cases prepared
    · rename_i host named
      rw [sentHeaders_eq_signedHeaders named] at prepared
      split at prepared
      · cases prepared
      · split at prepared
        · cases prepared
        · cases prepared
          exact .service operation url host date _ address

theorem Performs.sentUnder {operation : Operation} {sent : List Sent}
    {body : Except Error Bytes} (performs : Performs account operation sent body) :
    ∀ one ∈ sent, SentUnder account one.question := by
  cases performs with
  | unsent date cause unprepared => exact sentUnder_of_unsent
  | sent date request prepared answer =>
      intro one member
      cases List.mem_singleton.mp member
      exact sentUnder_of_prepare prepared

theorem ask_sendsUnder (operation : Operation) (read : Json.Reader α) :
    SendsUnder account (ask account operation read) :=
  (ask_ensures account operation read).mono fun _ _ ⟨_, performs, _⟩ => performs.sentUnder

theorem tell_sendsUnder (operation : Operation) : SendsUnder account (tell account operation) :=
  (tell_ensures account operation).mono fun _ _ ⟨_, performs, _⟩ => performs.sentUnder

end KeyService

namespace ObjectStore

theorem sentUnder_of_prepare {seconds : Int} {location : ObjectLocation} {request : Http.Request}
    (prepared : prepare account seconds location = some request) : SentUnder account request := by
  obtain ⟨url, address, rest⟩ := Option.bind_eq_some_iff.mp prepared
  obtain ⟨host, named, made⟩ := Option.bind_eq_some_iff.mp rest
  cases made
  exact .object location url _ _ address

theorem fetch_sendsUnder (location : ObjectLocation) :
    SendsUnder account (fetch account location) := by
  rw [SendsUnder, fetch, Wire.ensures_bind, Wire.ensures_host]
  intro now
  split
  · exact sentUnder_of_unsent
  · rename_i request prepared
    intro answer one member
    cases List.mem_singleton.mp member
    exact sentUnder_of_prepare prepared

end ObjectStore

theorem answerQuestion_sendsUnder (account : Account) (question : Question) :
    SendsUnder account (answerQuestion account question) := by
  cases question with
  | host request => exact fun _ => sentUnder_of_unsent
  | call asked =>
      cases asked with
      | tagPage query => exact KeyService.ask_sendsUnder _ _
      | listKeys spec => exact KeyService.ask_sendsUnder _ _
      | setRotation switch keyId token => exact KeyService.tell_sendsUnder _
      | setKey switch keyId token => exact KeyService.ask_sendsUnder _ _
      | createKey name => exact KeyService.ask_sendsUnder _ _
      | listAliases => exact KeyService.ask_sendsUnder _ _
      | createAlias keyId name => exact KeyService.tell_sendsUnder _
      | getObject location => exact ObjectStore.fetch_sendsUnder location

theorem connect_sendsUnder (account : Account) (program : Custody α) :
    SendsUnder account (connect account program) := by
  -- What is sent for one question is judged whatever its reply is, and the rest for each reply.
  induction program with
  | done value => exact sentUnder_of_unsent
  | ask question next induction =>
      have first := answerQuestion_sendsUnder account question
      refine (Wire.ensures_bind _ _).mpr (first.mono fun before reply here => ?_)
      exact (induction reply).mono fun after value later one member =>
        (List.mem_append.mp member).elim (here one) (later one)

end Cloud

namespace Program

-- A blank region comes before missing credentials, though the variable is not empty.
example :
    let set : List (String × String) := [(Settings.regionName, " ")]
    Session.firstFault ⟨fun name => set.lookup name, fun _ => .absent⟩ none =
      some (.settings (.missingField "region")) := by decide +kernel

-- Four variables are enough where there is no file.
example :
    let set : List (String × String) :=
      [(Settings.regionName, "r1"), (Settings.projectName, "p1"),
        (Signing.Credentials.accessKeyName, "a"), (Signing.Credentials.secretKeyName, "s")]
    Session.firstFault ⟨fun name => set.lookup name, fun _ => .absent⟩ none = none := by
  decide +kernel

end Program

end KeyCustody
