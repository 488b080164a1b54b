import KeyCustody.Decimal.Shortest
import KeyCustody.Text.Hex

namespace KeyCustody

/-! # JSON values, and the two ways of writing them

A number is a whole number of at most 64 bits or a binary64 magnitude with a sign. The
members of an object keep the order they are given in. `compact` writes a value without
blanks; `indented` writes one item or member to a line. -/

inductive Json.Number where
  | integer (value : Int)
  | real (negative : Bool) (magnitude : Decimal.Magnitude)
  deriving DecidableEq, Repr

inductive Json where
  | null
  | boolean (value : Bool)
  | number (value : Json.Number)
  | text (value : String)
  | array (items : List Json)
  | object (members : List (String × Json))

namespace Json

/-- The value of the first member of an object with that name. -/
def get? (name : String) : Json → Option Json
  | .object members => members.lookup name
  | _ => none

def text? : Json → Option String
  | .text value => some value
  | _ => none

def items? : Json → Option (List Json)
  | .array items => some items
  | _ => none

/-- Sets the member of that name in a list of members sorted by name. -/
def setMember (name : String) (value : Json) : List (String × Json) → List (String × Json)
  | [] => [(name, value)]
  | (other, held) :: rest =>
      if name < other then (name, value) :: (other, held) :: rest
      else if name = other then (name, value) :: rest
      else (other, held) :: setMember name value rest

/-- An object whose members are sorted by name; of several with one name the last counts. -/
def sortedObject (members : List (String × Json)) : Json :=
  .object (members.foldl (fun sorted member => setMember member.1 member.2 sorted) [])

def Number.text : Number → String
  | .integer value => toString value
  | .real negative magnitude =>
      (if negative then "-" else "") ++ magnitude.text Decimal.documentStyle

/-- Quotes, backslashes and control characters are escaped, and nothing else. -/
def escape (c : Char) : List Char :=
  if c = '"' then ['\\', '"']
  else if c = '\\' then ['\\', '\\']
  else if c = '\n' then ['\\', 'n']
  else if c = '\r' then ['\\', 'r']
  else if c = '\t' then ['\\', 't']
  else if c.toNat = 8 then ['\\', 'b']
  else if c.toNat = 12 then ['\\', 'f']
  else if c.toNat < 32 then
    ['\\', 'u', '0', '0', Text.Hex.digit (c.toNat / 16), Text.Hex.digit (c.toNat % 16)]
  else [c]

/-- The text in quotes. -/
def quote (text : String) : String :=
  String.ofList ('"' :: text.toList.flatMap escape ++ ['"'])

mutual

/-- The value on one line, without blanks. -/
def compact : Json → String
  | .null => "null"
  | .boolean value => if value then "true" else "false"
  | .number value => value.text
  | .text value => quote value
  | .array items => "[" ++ compactItems items ++ "]"
  | .object members => "\x7b" ++ compactMembers members ++ "\x7d"

def compactItems : List Json → String
  | [] => ""
  | [item] => compact item
  | item :: rest => compact item ++ "," ++ compactItems rest

def compactMembers : List (String × Json) → String
  | [] => ""
  | [(name, value)] => quote name ++ ":" ++ compact value
  | (name, value) :: rest => quote name ++ ":" ++ compact value ++ "," ++ compactMembers rest

end

/-- A new line at a depth, two spaces a level. -/
def lineBreak (depth : Nat) : String :=
  String.ofList ('\n' :: List.replicate (2 * depth) ' ')

mutual

/-- The value with every item and member on a line of its own. -/
def indentedAt (depth : Nat) : Json → String
  | .null => "null"
  | .boolean value => if value then "true" else "false"
  | .number value => value.text
  | .text value => quote value
  | .array [] => "[]"
  | .array (item :: rest) =>
      "[" ++ lineBreak (depth + 1) ++ indentedItems (depth + 1) (item :: rest) ++
        lineBreak depth ++ "]"
  | .object [] => "\x7b\x7d"
  | .object (member :: rest) =>
      "\x7b" ++ lineBreak (depth + 1) ++ indentedMembers (depth + 1) (member :: rest) ++
        lineBreak depth ++ "\x7d"

def indentedItems (depth : Nat) : List Json → String
  | [] => ""
  | [item] => indentedAt depth item
  | item :: rest =>
      indentedAt depth item ++ "," ++ lineBreak depth ++ indentedItems depth rest

def indentedMembers (depth : Nat) : List (String × Json) → String
  | [] => ""
  | [(name, value)] => quote name ++ ": " ++ indentedAt depth value
  | (name, value) :: rest =>
      quote name ++ ": " ++ indentedAt depth value ++ "," ++ lineBreak depth ++
        indentedMembers depth rest

end

def indented (value : Json) : String := value.indentedAt 0

mutual

/-- The value with the members of every object sorted by name. -/
def sorted : Json → Json
  | .array items => .array (sortedItems items)
  | .object members => sortedObject (sortedMembers members)
  | other => other

def sortedItems : List Json → List Json
  | [] => []
  | item :: rest => sorted item :: sortedItems rest

def sortedMembers : List (String × Json) → List (String × Json)
  | [] => []
  | (name, value) :: rest => (name, sorted value) :: sortedMembers rest

end

end Json

end KeyCustody
