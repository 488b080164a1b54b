import KeyCustody.CommandLine.Invocation
import KeyCustody.Filter.Expression

namespace KeyCustody.CommandLine

/-! # Reading a command line

Words are read from left to right on one of two levels: before the command and after it.
An argument that takes a value is pending until the next argument, and is checked only
then, so of two faults the one that is complete first counts. A word that is not known on
its level is refused at once. -/

inductive Argument where
  | help
  | version
  | verbose
  | config
  | logFormat
  | json
  | id
  | filter
  | allKeysDisable
  | aliasName
  | obsUrl
  | pace
  | shell
  deriving DecidableEq, Repr

namespace Argument

/-- The arguments that are given by name. -/
def names : List (String × Argument) :=
  [("help", .help), ("version", .version), ("verbose", .verbose), ("config", .config),
    ("log-format", .logFormat), ("json", .json), ("id", .id), ("filter", .filter),
    ("all-keys-disable", .allKeysDisable), ("alias", .aliasName), ("obs-url", .obsUrl),
    ("pace-ms", .pace)]

def letters : List (Char × Argument) :=
  [('h', .help), ('V', .version), ('v', .verbose), ('c', .config)]

def takesValue : Argument → Bool
  | .help => false
  | .version => false
  | .verbose => false
  | .json => false
  | _ => true

/-- Whether an argument may be given more than once on a level. -/
def isRepeatable : Argument → Bool
  | .id => true
  | .filter => true
  | .allKeysDisable => true
  | .aliasName => true
  | _ => false

/-- Arguments of every level. -/
def everywhere : List Argument := [.help, .verbose, .config, .logFormat]

/-- The arguments of a level: of a command, or before it. -/
def offered : Option Verb → List Argument
  | none => .version :: everywhere
  | some .list => [.json, .id, .filter, .allKeysDisable] ++ everywhere
  | some (.act _) => [.json, .id, .filter, .allKeysDisable] ++ everywhere
  | some .importAliases => [.json, .aliasName, .obsUrl, .pace] ++ everywhere
  | some .completions => everywhere

def named? (level : Option Verb) (name : String) : Option Argument :=
  (names.lookup name).filter fun argument => (offered level).contains argument

def lettered? (level : Option Verb) (letter : Char) : Option Argument :=
  (letters.lookup letter).filter fun argument => (offered level).contains argument

end Argument

/-- An argument with its value. -/
inductive Entry where
  | verbose
  | json
  | config (path : String)
  | logFormat (format : LogFormat)
  | id (value : String)
  | filter (value : Filter)
  | allKeysDisable (value : Filter)
  | aliasName (name : String)
  | obsUrl (url : String)
  | pace (milliseconds : Nat)
  | shell (shell : Shell)
  deriving DecidableEq, Repr

def Entry.argument : Entry → Argument
  | .verbose => .verbose
  | .json => .json
  | .config _ => .config
  | .logFormat _ => .logFormat
  | .id _ => .id
  | .filter _ => .filter
  | .allKeysDisable _ => .allKeysDisable
  | .aliasName _ => .aliasName
  | .obsUrl _ => .obsUrl
  | .pace _ => .pace
  | .shell _ => .shell

def readPath (text : String) : Except Refusal Entry :=
  if text = "" then .error .invalidValue else .ok (.config text)

def readFilter (text : String) : Except Refusal Filter :=
  (Filter.parse text).mapError fun _ => .malformedValue

/-- A number of 64 bits. -/
def readNumber (text : String) : Except Refusal Nat :=
  match Text.natural? text.toList with
  | some number => if number < Nat.pow 2 64 then .ok number else .error .malformedValue
  | none => .error .malformedValue

/-- One of the names of a table. -/
def readChoice (names : List (String × α)) (text : String) : Except Refusal α :=
  (names.lookup text).elim (.error .invalidValue) .ok

/-- Reads the value of an argument that takes one. -/
def Argument.read (argument : Argument) (text : String) : Except Refusal Entry :=
  match argument with
  | .config => readPath text
  | .logFormat => (readChoice LogFormat.names text).map .logFormat
  | .id => .ok (.id text)
  | .filter => (readFilter text).map .filter
  | .allKeysDisable => (readFilter text).map .allKeysDisable
  | .aliasName => .ok (.aliasName text)
  | .obsUrl => .ok (.obsUrl text)
  | .pace => (readNumber text).map .pace
  | .shell => (readChoice Shell.names text).map .shell
  | .verbose => .ok .verbose
  | .json => .ok .json
  | .help => .error .helpWanted
  | .version => .error .versionWanted

/-- What was read on a level: the entries in order, and the argument that is pending with
its value, if that was read already. -/
structure Progress where
  entries : List Entry
  pending : Option (Argument × Option String)
  deriving DecidableEq, Repr

namespace Progress

def start : Progress := ⟨[], none⟩

def holds (progress : Progress) (argument : Argument) : Bool :=
  progress.entries.any fun entry => entry.argument = argument

/-- Adds an argument with its value. -/
def put (progress : Progress) (argument : Argument) (text : String) :
    Except Refusal Progress := do
  if progress.holds argument ∧ ¬argument.isRepeatable then .error .repeatedArgument
  else
    let entry ← argument.read text
    pure { progress with entries := progress.entries ++ [entry] }

/-- Adds the argument that is pending, which has to have its value by now. -/
def settle (progress : Progress) : Except Refusal Progress :=
  match progress.pending with
  | none => .ok progress
  | some (_, none) => .error .invalidValue
  | some (argument, some text) => { progress with pending := none }.put argument text

/-- Adds an argument after the one that is pending. -/
def next (progress : Progress) (argument : Argument) (text : String) :
    Except Refusal Progress := do
  (← progress.settle).put argument text

/-- Makes an argument the one that is pending. -/
def await (progress : Progress) (argument : Argument) (text : Option String) :
    Except Refusal Progress := do
  pure { (← progress.settle) with pending := some (argument, text) }

end Progress

/-- A word by its shape. -/
inductive Shape where
  | plain
  | escape
  | long (name : String) (value : Option String)
  | short (letters : List Char)
  deriving DecidableEq, Repr

def shapeOf (word : List Char) : Shape :=
  match word with
  | ['-', '-'] => .escape
  | '-' :: '-' :: rest =>
      match Text.breakAt ['='] rest with
      | some (name, value) => .long (String.ofList name) (some (String.ofList value))
      | none => .long (String.ofList rest) none
  | '-' :: c :: rest => .short (c :: rest)
  | _ => .plain

/-- Takes an argument given by its name. -/
def takeLong (level : Option Verb) (progress : Progress) (name : String)
    (value : Option String) : Except Refusal Progress :=
  match Argument.named? level name with
  | none => .error .unknownArgument
  | some argument =>
      match argument.takesValue, value with
      | true, some text => progress.next argument text
      | true, none => progress.await argument none
      | false, some _ => .error .surplusValue
      | false, none => progress.next argument ""

/-- Takes arguments given by letters. What follows the letter of an argument that takes a
value is its value, without an equals sign in front. -/
def takeShort (level : Option Verb) (progress : Progress) :
    List Char → Except Refusal Progress
  | [] => .ok progress
  | letter :: rest =>
      match Argument.lettered? level letter with
      | none => .error .unknownArgument
      | some argument =>
          if argument.takesValue then
            match rest with
            | [] => progress.await argument none
            | '=' :: text => progress.next argument (String.ofList text)
            | text => progress.next argument (String.ofList text)
          else do takeShort level (← progress.next argument "") rest

def helpName : String := "help"

/-- Whether a word names a command, or asks for help. -/
def isCommandName (word : String) : Bool :=
  word = helpName || (Verb.names.lookup word).isSome

/-- Takes a word that belongs to no argument by name. Only the shell is given so. -/
def takePlain (level : Option Verb) (trailing : Bool) (progress : Progress) (word : String) :
    Except Refusal Progress :=
  match level with
  | none =>
      if trailing ∧ isCommandName word then .error .unknownArgument else .error .unknownCommand
  | some .completions =>
      let taken := progress.holds .shell || progress.pending.any fun entry => entry.1 = .shell
      if taken then .error .unknownArgument else progress.await .shell (some word)
  | some _ => .error .unknownArgument

/-- The refusal for a word that asks for help on the words after it. -/
def helpOn : List String → Refusal
  | [] => .helpWanted
  | [word] => if isCommandName word then .helpWanted else .unknownCommand
  | _ => .unknownCommand

/-- Where the reading of a level ends: at the end of the line or at a command. -/
inductive Reached where
  | stop (progress : Progress)
  | command (progress : Progress) (verb : Verb) (rest : List String)

/-- Reads the words of a level. After two hyphens every word stands for itself. -/
def readLevel (level : Option Verb) (trailing : Bool) (progress : Progress) :
    List String → Except Refusal Reached
  | [] => .ok (.stop progress)
  | word :: rest =>
      let awaiting := progress.pending.bind fun (argument, text) =>
        if text.isNone then some argument else none
      if trailing then do
        readLevel level trailing (← takePlain level trailing progress word) rest
      else if level.isNone ∧ awaiting.isNone ∧ word = helpName then .error (helpOn rest)
      else
        let verb := if level.isNone ∧ awaiting.isNone then Verb.names.lookup word else none
        match verb, shapeOf word.toList, awaiting with
        | some verb, _, _ => .ok (.command progress verb rest)
        | none, .escape, _ => readLevel level true progress rest
        | none, .long name value, _ => do
            readLevel level false (← takeLong level progress name value) rest
        | none, .short letters, _ => do
            readLevel level false (← takeShort level progress letters) rest
        | none, .plain, some argument =>
            readLevel level false { progress with pending := some (argument, some word) } rest
        | none, .plain, none => do
            readLevel level false (← takePlain level false progress word) rest

/-- The entries of a level that is read. A level without a path takes the one that the host
gives. -/
def finish (hostPath : Option String) (progress : Progress) : Except Refusal (List Entry) := do
  let settled ← progress.settle
  if ¬settled.holds .config ∧ hostPath = some "" then .error .invalidValue
  else pure settled.entries

def Entry.path? : Entry → Option String
  | .config path => some path
  | _ => none

def Entry.logFormat? : Entry → Option LogFormat
  | .logFormat format => some format
  | _ => none

def Entry.id? : Entry → Option String
  | .id value => some value
  | _ => none

def Entry.filter? : Entry → Option Filter
  | .filter value => some value
  | _ => none

def Entry.allKeysDisable? : Entry → Option Filter
  | .allKeysDisable value => some value
  | _ => none

def Entry.aliasName? : Entry → Option String
  | .aliasName name => some name
  | _ => none

def Entry.obsUrl? : Entry → Option String
  | .obsUrl url => some url
  | _ => none

def Entry.pace? : Entry → Option Nat
  | .pace milliseconds => some milliseconds
  | _ => none

def Entry.shell? : Entry → Option Shell
  | .shell found => some found
  | _ => none

def selectionOf (entries : List Entry) : Selection :=
  ⟨entries.filterMap Entry.id?, entries.filterMap Entry.filter?,
    entries.filterMap Entry.allKeysDisable?⟩

def importOptionsOf (entries : List Entry) : ImportOptions :=
  ⟨entries.filterMap Entry.aliasName?, entries.findSome? Entry.obsUrl?,
    entries.findSome? Entry.pace?⟩

/-- The command with its own entries. -/
def commandOf (verb : Verb) (entries : List Entry) : Except Refusal Command :=
  let json := entries.contains .json
  match verb with
  | .list => .ok (.work (.list (selectionOf entries)) json)
  | .act action => .ok (.work (.act action (selectionOf entries)) json)
  | .importAliases => .ok (.work (.importAliases (importOptionsOf entries)) json)
  | .completions =>
      (entries.findSome? Entry.shell?).elim (.error .missingArgument) fun shell =>
        .ok (.completions shell)

/-- The refusal of a line without a command. -/
def withoutCommand (hostPath : Option String) (entries : List Entry) : Refusal :=
  if entries.isEmpty ∧ hostPath.isNone then .nothingGiven else .missingCommand

/-- Reads a command line. What is given after the command goes before what is given ahead of
it, and the path on the line before the one that the host gives. -/
def parse (hostPath : Option String) (words : List String) : Except Refusal Invocation := do
  match ← readLevel none false .start words with
  | .stop progress => .error (withoutCommand hostPath (← finish hostPath progress))
  | .command progress verb rest => do
      let inner ← match ← readLevel (some verb) false .start rest with
        | .stop inner => finish hostPath inner
        | .command _ _ _ => .error .unknownCommand
      let command ← commandOf verb inner
      let outer ← finish hostPath progress
      let entries := inner ++ outer
      pure
        ⟨entries.contains .verbose, (entries.findSome? Entry.path?).or hostPath,
          (entries.findSome? Entry.logFormat?).getD .text, command⟩

end KeyCustody.CommandLine
