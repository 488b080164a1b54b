import KeyCustody.Presentation

namespace KeyCustody.CommandLine

/-! # Invocations

What a command line asks for, and why one is refused. -/

inductive LogFormat where
  | text
  | json
  deriving DecidableEq, Repr

inductive Shell where
  | bash
  | elvish
  | fish
  | powershell
  | zsh
  deriving DecidableEq, Repr

def LogFormat.names : List (String × LogFormat) := [("text", .text), ("json", .json)]

def Shell.names : List (String × Shell) :=
  [("bash", .bash), ("elvish", .elvish), ("fish", .fish), ("powershell", .powershell),
    ("zsh", .zsh)]

/-- The commands by kind. -/
inductive Verb where
  | list
  | act (action : Action)
  | importAliases
  | completions
  deriving DecidableEq, Repr

def Verb.names : List (String × Verb) :=
  [("list", .list), ("enable-rotation", .act .enableRotation),
    ("disable-rotation", .act .disableRotation), ("enable-key", .act .enableKey),
    ("disable-key", .act .disableKey), ("create-key-with-alias", .importAliases),
    ("completions", .completions)]

/-- What takes the place of settings for an import. -/
structure ImportOptions where
  names : List String
  manifestUrl : Option String
  pace : Option Nat
  deriving DecidableEq, Repr

/-- Work at the provider. -/
inductive Job where
  | list (selection : Selection)
  | act (action : Action) (selection : Selection)
  | importAliases (options : ImportOptions)
  deriving DecidableEq, Repr

inductive Command where
  /-- Work whose result is shown as JSON or for people. -/
  | work (job : Job) (json : Bool)
  | completions (shell : Shell)
  deriving DecidableEq, Repr

structure Invocation where
  verbose : Bool
  config : Option String
  logFormat : LogFormat
  command : Command
  deriving DecidableEq, Repr

/-- Why a command line is not carried out. -/
inductive Refusal where
  | helpWanted
  | versionWanted
  /-- There is nothing on the line. -/
  | nothingGiven
  | missingCommand
  | unknownCommand
  | unknownArgument
  | missingArgument
  | repeatedArgument
  /-- A value that is missing, empty or none of those there are. -/
  | invalidValue
  /-- A value that cannot be read. -/
  | malformedValue
  /-- A value for an argument that takes none. -/
  | surplusValue
  deriving DecidableEq, Repr

def Refusal.message : Refusal → String
  | .helpWanted => "help wanted"
  | .versionWanted => "version wanted"
  | .nothingGiven => "a command is required"
  | .missingCommand => "a command is required"
  | .unknownCommand => "there is no such command"
  | .unknownArgument => "there is no such argument here"
  | .missingArgument => "an argument is missing"
  | .repeatedArgument => "an argument is given twice"
  | .invalidValue => "an argument has no usable value"
  | .malformedValue => "the value of an argument cannot be read"
  | .surplusValue => "a value is given to an argument that takes none"

end KeyCustody.CommandLine
