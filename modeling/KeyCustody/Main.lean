import KeyCustody.Program
import Std.Time.DateTime.Timestamp

namespace KeyCustody.Main

/-! # The command

The program's questions are put to the machine it runs on. No connection to a network is
linked in, so a request is lost. -/

open Cloud (Wire Wire.Question Wire.Question.Reply)

def variableNames : List String :=
  [Signing.Credentials.accessKeyName, Signing.Credentials.secretKeyName, Settings.regionName,
    Settings.projectName, Program.pathVariable, "NO_COLOR", "CLICOLOR", "CLICOLOR_FORCE",
    "TERM"]

/-- The variables that are set. -/
def readEnvironment : IO (List (String × String)) :=
  variableNames.filterMapM fun name => do
    pure ((← IO.getEnv name).map fun value => (name, value))

/-- What a path names. -/
def readStored (path : String) : IO Stored := do
  try
    pure (.file (← IO.FS.readBinFile path).toList)
  catch
    | .noFileOrDirectory _ _ _ => pure .absent
    | _ => pure .folder

/-- The host as far as a command line asks for it. -/
def readHost (words : List String) : IO Host := do
  let environment ← readEnvironment
  let bare : Host := ⟨fun name => environment.lookup name, fun _ => .absent⟩
  let path := match Program.read bare words with
    | .ok invocation => invocation.config.getD Settings.defaultPath
    | .error _ => Settings.defaultPath
  let stored ← readStored path
  pure { bare with files := fun asked => if asked = path then stored else .absent }

def freshToken : IO String := do
  pure (Text.Hex.encode (← IO.getRandomBytes 16).toList)

def printLine (line : Terminal.Line) : IO Unit :=
  match line.stream with
  | .output => IO.println line.text
  | .error => IO.eprintln line.text

/-- Answers the program. Notices are printed only if they are wanted. -/
def answerHost (notices : Bool) : (request : Ambient) → IO request.Reply
  | .now => do
      let moment ← Std.Time.Timestamp.now
      pure moment.toNanosecondsSinceUnixEpoch.val
  | .sleep milliseconds => IO.sleep (min milliseconds (Nat.pow 2 32 - 1)).toUInt32
  | .token => freshToken
  | .note notice => if notices then IO.eprintln notice.line else pure ()
  | .print line => printLine line

def answer (notices : Bool) : (question : Wire.Question) → IO question.Reply
  | .send _ => pure .lost
  | .host request => answerHost notices request

/-- Puts every question to the machine. -/
def perform (notices : Bool) : Wire α → IO α
  | .done value => pure value
  | .ask question next => do
      let reply ← answer notices question
      perform notices (next reply)

end KeyCustody.Main

def main (words : List String) : IO UInt32 := do
  let host ← KeyCustody.Main.readHost words
  let onTerminal ← (← IO.getStdout).isTty
  let notices := (← IO.getEnv KeyCustody.Program.logVariable) != some "off"
  let status ← KeyCustody.Main.perform notices (KeyCustody.Program.run host onTerminal words)
  pure status.toUInt32
