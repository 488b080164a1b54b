import KeyCustody.Key.Record
import KeyCustody.Text.Natural
import KeyCustody.Text.Split

namespace KeyCustody

/-! # Filters

A filter looks up one field of a record's JSON form and compares it as text. A path is
cut at dots and followed through objects by name and through arrays by position;
`tag:<name>` is the value of the first tag with that key. A field that is missing or
null has no text. -/

inductive Filter.Test where
  | equal
  | differ
  | oneOf
  | noneOf
  | present
  | absent
  deriving DecidableEq, Repr

structure Filter where
  path : String
  test : Filter.Test
  values : List String
  deriving DecidableEq, Repr

namespace Filter

/-- The value of one step down: an item by its position, or a member by its name. -/
def descend (node : Json) (step : List Char) : Option Json :=
  match node with
  | .array items => (Text.natural? step).bind fun index => items[index]?
  | other => other.get? (String.ofList step)

def followPath (document : Json) (path : List Char) : Option Json :=
  (Text.fields '.' path).foldlM descend document

def tagMark : List Char := "tag:".toList

/-- The value of the first tag of a document with that key. -/
def tagValue (document : Json) (key : String) : Option Json := do
  let tags ← (← document.get? "tags").items?
  let tag ← tags.find? fun tag => (tag.get? "key").bind Json.text? == some key
  tag.get? "value"

def extract (document : Json) (path : String) : Option Json :=
  match tagMark.isPrefixOf? path.toList with
  | some key => tagValue document (String.ofList key)
  | none => followPath document path.toList

/-- A value as text: a string itself, nothing for null, else its JSON on one line. -/
def textOf : Json → Option String
  | .null => none
  | .text value => some value
  | other => some other.compact

/-- The text that a path finds in a document. -/
def find (document : Json) (path : String) : Option String :=
  (extract document path).bind textOf

/-- Whether a test accepts the text found. -/
def Test.accepts (test : Test) (values : List String) (found : Option String) : Bool :=
  match test, found with
  | .present, found => found.isSome
  | .absent, found => found.isNone
  | .equal, some text => values.contains text
  | .oneOf, some text => values.contains text
  | .equal, none => false
  | .oneOf, none => false
  | .differ, some text => !values.contains text
  | .noneOf, some text => !values.contains text
  | .differ, none => true
  | .noneOf, none => true

def acceptsDocument (filter : Filter) (document : Json) : Bool :=
  filter.test.accepts filter.values (find document filter.path)

def accepts (filter : Filter) (record : Key.Record) : Bool :=
  filter.acceptsDocument record.json

end Filter

end KeyCustody
