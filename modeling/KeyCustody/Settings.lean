import KeyCustody.AliasImport
import KeyCustody.Host
import KeyCustody.Text.Blank
import KeyCustody.Toml.Document
import KeyCustody.Toml.Section

namespace KeyCustody

/-! # Settings

Settings come from a file, and what the file does not give has a default. After that two
variables of the host may replace the region and the project. Credentials are no
settings. -/

/-- Where the provider is. -/
structure CloudSettings where
  region : String := ""
  projectId : String := ""
  domain : String := "myhuaweicloud.com"
  kmsEndpoint : Option String := none
  obsEndpoint : Option String := none
  /-- Seconds that a request may take. -/
  timeout : Nat := 30
  deriving DecidableEq, Repr

/-- What an import starts from. -/
structure ImportSettings where
  names : List String := []
  manifestUrl : Option String := none
  /-- Milliseconds to wait after each created pair. -/
  pace : Nat := 1000
  deriving DecidableEq, Repr

structure Settings where
  cloud : CloudSettings := {}
  aliasImport : ImportSettings := {}
  deriving DecidableEq, Repr

def trimSlashes (text : String) : String :=
  String.ofList (text.toList.reverse.dropWhile (· = '/')).reverse

/-- The address of the key service. -/
def CloudSettings.serviceUrl (cloud : CloudSettings) : String :=
  match cloud.kmsEndpoint with
  | some endpoint => trimSlashes endpoint
  | none => "https://kms." ++ cloud.region ++ "." ++ cloud.domain

def ImportSettings.request (settings : ImportSettings) : AliasImport :=
  .of settings.names settings.manifestUrl settings.pace

namespace Settings

open Toml (Slot Value)

def cloudFields : List (Slot CloudSettings) :=
  [.of "region" Value.text? fun value cloud => { cloud with region := value },
    .of "project_id" Value.text? fun value cloud => { cloud with projectId := value },
    .of "domain" Value.text? fun value cloud => { cloud with domain := value },
    .of "kms_endpoint" Value.text? fun value cloud => { cloud with kmsEndpoint := some value },
    .of "obs_endpoint" Value.text? fun value cloud => { cloud with obsEndpoint := some value },
    .of "timeout_secs" Value.natural? fun value cloud => { cloud with timeout := value }]

def importFields : List (Slot ImportSettings) :=
  [.of "key_aliases" Value.texts? fun value settings => { settings with names := value },
    .of "obs_url" Value.text? fun value settings => { settings with manifestUrl := some value },
    .of "pace_ms" Value.natural? fun value settings => { settings with pace := value }]

def fields : List (Slot Settings) :=
  [.of "cloud" (Value.section? cloudFields {}) fun value settings =>
      { settings with cloud := value },
    .of "alias_import" (Value.section? importFields {}) fun value settings =>
      { settings with aliasImport := value }]

/-- The settings that a document gives. -/
def ofEntries (entries : Toml.Entries) : Option Settings := Toml.fill fields {} entries

/-- Reads the text of a settings file. -/
def parse (text : String) : Except Error Settings :=
  match Toml.parse text with
  | none => .error (.settings (.notToml "the text is not TOML"))
  | some entries =>
      (ofEntries entries).elim
        (.error (.settings (.notToml "a setting is of another type"))) .ok

/-- Reads what a path names. -/
def ofStored (path : String) : Stored → Except Error Settings
  | .absent => .error (.settings (.notFound path))
  | .folder => .error (.settings (.unreadable "Is a directory (os error 21)"))
  | .file octets =>
      match Text.ofOctets? octets with
      | some text => parse text
      | none => .error (.settings (.unreadable "stream did not contain valid UTF-8"))

def defaultPath : String := "keyward.toml"

/-- Reads the settings file of a host. A path that is asked for has to lead somewhere; the
default path need not. -/
def ofFile (host : Host) (path : Option String) : Except Error Settings :=
  match path with
  | some path => ofStored path (host.files path)
  | none =>
      match host.files defaultPath with
      | .absent => .ok {}
      | stored => ofStored defaultPath stored

def regionName : String := "HUAWEI_DEFAULT_REGION"

def projectName : String := "HUAWEI_PROJECT_ID"

/-- The settings with what the host's variables replace. -/
def override (host : Host) (settings : Settings) : Settings :=
  { settings with
    cloud :=
      { settings.cloud with
        region := (host.setting? regionName).getD settings.cloud.region
        projectId := (host.setting? projectName).getD settings.cloud.projectId } }

/-- The settings for a host. -/
def load (host : Host) (path : Option String) : Except Error Settings :=
  (ofFile host path).map (override host)

/-- Checks what requests need. -/
def validate (settings : Settings) : Except Error Unit :=
  let cloud := settings.cloud
  if Text.isAllBlank cloud.region then .error (.settings (.missingField "region"))
  else if Text.isAllBlank cloud.projectId then .error (.settings (.missingField "project_id"))
  else if Text.isAllBlank cloud.domain ∧ cloud.kmsEndpoint.isNone then
    .error (.settings (.invalidValue "domain" "empty domain without a kms_endpoint"))
  else if cloud.timeout = 0 then
    .error (.settings (.invalidValue "timeout_secs" "must be greater than zero"))
  else .ok ()

def textMember (name : String) (value : Option String) : List (String × Json) :=
  (value.map fun value => (name, Json.text value)).toList

def json (settings : Settings) : Json :=
  let cloud := settings.cloud
  let aliases := settings.aliasImport
  .object
    [("cloud", .object
      ([("region", .text cloud.region), ("project_id", .text cloud.projectId),
          ("domain", .text cloud.domain)] ++
        textMember "kms_endpoint" cloud.kmsEndpoint ++
        textMember "obs_endpoint" cloud.obsEndpoint ++
        [("timeout_secs", .number (.integer cloud.timeout))])),
      ("alias_import", .object
        ([("key_aliases", .array (aliases.names.map .text))] ++
          textMember "obs_url" aliases.manifestUrl ++
          [("pace_ms", .number (.integer aliases.pace))]))]

end Settings

end KeyCustody
