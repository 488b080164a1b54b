import KeyCustody.Cloud.Gateway
import KeyCustody.CommandLine.Completion

namespace KeyCustody

/-! # The program

A job is done under a session: settings that hold what requests need, and credentials.
Without a session nothing is asked of the provider and nothing is printed. -/

open CommandLine (Command Invocation Job Refusal)
open Cloud (Wire)

/-- What jobs are done under. -/
structure Session where
  settings : Settings
  credentials : Signing.Credentials
  deriving DecidableEq, Repr

namespace Session

/-- Opens a session: the settings are read, then checked, then the credentials are read. -/
def «open» (host : Host) (path : Option String) : Except Error Session := do
  let settings ← Settings.load host path
  settings.validate
  let credentials ← Signing.Credentials.ofHost host
  pure ⟨settings, credentials⟩

def account (session : Session) : Cloud.Account :=
  ⟨session.settings.cloud, session.credentials⟩

end Session

/-- The import that settings and options ask for. A list that is given replaces the other;
so does a URL, of which an empty one is none. -/
def CommandLine.ImportOptions.request (options : ImportOptions) (settings : ImportSettings) :
    AliasImport :=
  let request := settings.request
  { names := if options.names.isEmpty then request.names else options.names
    manifestUrl :=
      match options.manifestUrl with
      | some url => AliasImport.usableUrl (some url)
      | none => request.manifestUrl
    pace := options.pace.getD request.pace }

namespace Program

/-- What a job is under a session. -/
def errand (session : Session) (mode : Presentation.Mode) : Job → Errand Unit
  | .list selection => Presentation.listKeys mode selection
  | .act action selection => Presentation.remediate mode action selection
  | .importAliases options =>
      Presentation.importAliases mode (options.request session.settings.aliasImport)

/-- Carries out a command. -/
def execute (host : Host) (colors : Bool) (path : Option String) :
    Command → Wire (Except Error Unit)
  | .completions shell => do
      Wire.host (.print (Terminal.plain shell.script))
      pure (.ok ())
  | .work job json =>
      match Session.open host path with
      | .error error => pure (.error error)
      | .ok session => Cloud.connect session.account (errand session ⟨json, colors⟩ job).attempt

/-- Advice on an error, if there is any. -/
def advice : Error → Option String
  | .settings (.missingField field) =>
      if field = Signing.Credentials.accessKeyName ∨ field = Signing.Credentials.secretKeyName then
        some "set HUAWEI_ACCESS_KEY_ID and HUAWEI_SECRET_ACCESS_KEY"
      else if field = "region" then
        some "set [cloud] region in keyward.toml or HUAWEI_DEFAULT_REGION"
      else if field = "project_id" then
        some "set [cloud] project_id in keyward.toml or HUAWEI_PROJECT_ID"
      else none
  | .incomplete _ _ _ => some "rerun with --verbose for per-key details"
  | _ => none

/-- The lines that tell of an error. -/
def errorLines (colors : Bool) (error : Error) : List Terminal.Line :=
  Terminal.error colors error.message ::
    ((advice error).map (Terminal.hint colors)).toList

/-- Whether the host lets lines have colors. -/
def allowsColors (host : Host) : Bool := (host.environment "NO_COLOR").isNone

/-- Whether a terminal has colors. One without a kind, or of the kind `dumb`, has none. -/
def hasColors (host : Host) : Bool :=
  (host.environment "TERM").any (· != "dumb") && host.environment "CLICOLOR" != some "0"

/-- Whether lines have colors: on a terminal, or where the host insists, if it lets them. -/
def showsColors (host : Host) (onTerminal : Bool) : Bool :=
  allowsColors host &&
    ((onTerminal && hasColors host) ||
      ((host.environment "CLICOLOR_FORCE").getD "0") != "0")

def pathVariable : String := "KEYWARD_CONFIG"

def logVariable : String := "KEYWARD_LOG"

def read (host : Host) (words : List String) : Except Refusal Invocation :=
  CommandLine.parse (host.environment pathVariable) words

def version : String := CommandLine.programName ++ " 0.1.0"

/-- A short help. It names the commands, and says nothing of their options. -/
def usage : String :=
  "Usage: " ++ CommandLine.programName ++ " [OPTIONS] <COMMAND>\n\nCommands:\n  " ++
    Text.joinWith "\n  " CommandLine.commandNames

/-- What is printed for a line that is not carried out, and the status that the program ends
with. -/
def decline : Refusal → Terminal.Line × Nat
  | .helpWanted => (Terminal.plain usage, 0)
  | .versionWanted => (Terminal.plain version, 0)
  | refusal => (⟨.error, "error: " ++ refusal.message ++ "\n\n" ++ usage⟩, 2)

def printAll : List Terminal.Line → Wire Unit
  | [] => pure ()
  | line :: rest => do
      Wire.host (.print line)
      printAll rest

/-- Runs the program on a command line and gives its exit status. -/
def run (host : Host) (onTerminal : Bool) (words : List String) : Wire Nat := do
  match read host words with
  | .error refusal => do
      let (line, status) := decline refusal
      Wire.host (.print line)
      pure status
  | .ok invocation =>
      let colors := showsColors host onTerminal
      match ← execute host colors invocation.config invocation.command with
      | .ok () => pure 0
      | .error error => do
          printAll (errorLines colors error)
          pure 1

end Program

end KeyCustody
