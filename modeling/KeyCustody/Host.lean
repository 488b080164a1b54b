import KeyCustody.Text.Split
import KeyCustody.Text.Utf8

namespace KeyCustody

/-! # The host of a program

What a program finds where it is started: variables by name and files by path. -/

/-- What a path names. -/
inductive Stored where
  | absent
  | folder
  | file (octets : Bytes)
  deriving DecidableEq, Repr

structure Host where
  environment : String → Option String
  files : String → Stored

/-- The value of a variable that is set and not empty. -/
def Host.setting? (host : Host) (name : String) : Option String :=
  (host.environment name).filter fun value => value != ""

namespace Stored

/-- Where a path leads: the names from the folder it starts in, or nowhere. Every step
leaves from a folder. -/
def walk (stored : List String → Stored) : List String → List String → Option (List String)
  | here, [] => some here
  | here, step :: rest =>
      if stored here ≠ .folder then none
      else if step = "" ∨ step = "." then walk stored here rest
      else if step = ".." then walk stored here.dropLast rest
      else walk stored (here ++ [step]) rest

/-- What lies at a place, given the named things in a folder. A thing further down makes a
folder of each place above it. -/
def among (things : List (String × Stored)) (place : List String) : Stored :=
  match place with
  | [] => .folder
  | _ =>
      let name := Text.joinWith "/" place
      match things.lookup name with
      | some stored => stored
      | none =>
          if things.any fun thing => thing.1.startsWith (name ++ "/") then .folder else .absent

/-- What a path names in a folder that holds these things. -/
def atPath (things : List (String × Stored)) (path : String) : Stored :=
  if path = "" ∨ path.startsWith "/" then .absent
  else
    match walk (among things) [] ((Text.fields '/' path.toList).map String.ofList) with
    | some place => among things place
    | none => .absent

end Stored

end KeyCustody
