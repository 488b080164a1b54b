import KeyCustody.Toml.Scalar

namespace KeyCustody.Toml

/-! # TOML documents

A document is a sequence of lines: a header opens a table, a pair puts a value under a
key in the table that is open, and any line may end in a comment. -/

/-- Arrays and tables may lie within each other less deep than this, and a key may have
fewer parts. -/
def depthLimit : Nat := 80

def isBareKey (c : Char) : Bool := c.isAlphanum || c = '-' || c = '_'

def simpleKey (text : List Char) : Option (String × List Char) :=
  match text with
  | '"' :: rest => (basicString rest).map fun (key, rest) => (String.ofList key, rest)
  | '\'' :: rest => (literalString rest).map fun (key, rest) => (String.ofList key, rest)
  | _ =>
      let key := text.takeWhile isBareKey
      if key.isEmpty then none else some (String.ofList key, text.dropWhile isBareKey)

/-- A key of one or more parts. The count bounds their number. -/
def dottedKey : Nat → List Char → Option (List String × List Char)
  | 0, _ => none
  | parts + 1, text => do
      let (key, rest) ← simpleKey (skipSpace text)
      match skipSpace rest with
      | '.' :: rest => do
          let (more, rest) ← dottedKey parts rest
          pure (key :: more, rest)
      | rest => pure ([key], rest)

def key (text : List Char) : Option (List String × List Char) := dottedKey (depthLimit - 1) text

/-- The text after a comment, if one stands here. -/
def skipComment : List Char → List Char
  | '#' :: rest => rest.dropWhile isPlain
  | text => text

/-- Passes over blanks, line endings and comments between the items of an array. -/
def skipFill : Nat → List Char → List Char
  | 0, text => text
  | fuel + 1, text =>
      let rest := skipComment (skipSpace text)
      match newline? rest with
      | some rest => skipFill fuel rest
      | none => rest

mutual

/-- A value. `depth` counts the arrays and tables that may still be opened. -/
def value : Nat → Nat → List Char → Option (Value × List Char)
  | 0, _, _ => none
  | fuel + 1, depth, text =>
      match text with
      | '"' :: _ => (string text).map fun (found, rest) => (.text (String.ofList found), rest)
      | '\'' :: _ => (string text).map fun (found, rest) => (.text (String.ofList found), rest)
      | '[' :: rest =>
          match depth with
          | 0 => none
          | depth + 1 => (items fuel depth rest).map fun (found, rest) => (.array found, rest)
      | '\x7b' :: rest =>
          match depth with
          | 0 => none
          | depth + 1 =>
              match skipSpace rest with
              | '\x7d' :: rest => some (.inline [], rest)
              | rest => (pairs fuel depth [] rest).map fun (found, rest) => (.inline found, rest)
      | _ => scalar text

/-- The items of an array up to its closing bracket. -/
def items : Nat → Nat → List Char → Option (List Value × List Char)
  | 0, _, _ => none
  | fuel + 1, depth, text =>
      match skipFill text.length text with
      | ']' :: rest => some ([], rest)
      | text => do
          let (head, rest) ← value fuel depth text
          match skipFill rest.length rest with
          | ',' :: rest => do
              let (tail, rest) ← items fuel depth rest
              pure (head :: tail, rest)
          | ']' :: rest => pure ([head], rest)
          | _ => none

/-- The pairs of a table in line, up to its closing brace. -/
def pairs : Nat → Nat → Entries → List Char → Option (Entries × List Char)
  | 0, _, _, _ => none
  | fuel + 1, depth, entries, text => do
      let (path, rest) ← key text
      match rest with
      | '=' :: rest => do
          let (found, rest) ← value fuel depth (skipSpace rest)
          let entries ← addDotted path found entries
          match skipSpace rest with
          | ',' :: rest => pairs fuel depth entries rest
          | '\x7d' :: rest => pure (entries, rest)
          | _ => none
      | _ => none

end

/-- A document as read so far: its entries, and the path of the table that is open. -/
structure Progress where
  entries : Entries
  path : List String

def Progress.openHeader (progress : Progress) (path : List String)
    (change : String → Entries → Option Entries) : Option Progress := do
  let entries ← alterAt (change (← path.getLast?)) path.dropLast progress.entries
  pure ⟨entries, path⟩

/-- A header after its opening bracket or brackets. -/
def header (progress : Progress) (text : List Char) : Option (Progress × List Char) :=
  match text with
  | '[' :: rest => do
      let (path, rest) ← key rest
      match rest with
      | ']' :: ']' :: rest => pure (← progress.openHeader path openNext, rest)
      | _ => none
  | _ => do
      let (path, rest) ← key text
      match rest with
      | ']' :: rest => pure (← progress.openHeader path openTable, rest)
      | _ => none

/-- A pair of a key and a value. -/
def pair (progress : Progress) (text : List Char) : Option (Progress × List Char) := do
  let (path, rest) ← key text
  match rest with
  | '=' :: rest => do
      let (found, rest) ← value (2 * rest.length + 2) (depthLimit - 1) (skipSpace rest)
      let entries ← alterAt (addDotted path found) progress.path progress.entries
      pure ({ progress with entries }, rest)
  | _ => none

/-- What stands at the front of a line that is not blank. -/
def expression (progress : Progress) (text : List Char) : Option (Progress × List Char) :=
  match text with
  | [] => some (progress, [])
  | '#' :: _ => some (progress, text)
  | '\n' :: _ => some (progress, text)
  | '\r' :: _ => some (progress, text)
  | '[' :: rest => header progress rest
  | _ => pair progress text

/-- Reads lines until the text ends. The count bounds their number. -/
def lines : Nat → Progress → List Char → Option Entries
  | 0, _, _ => none
  | fuel + 1, progress, text => do
      let (progress, rest) ← expression progress (skipSpace text)
      let rest := skipComment (skipSpace rest)
      if rest.isEmpty then pure progress.entries
      else lines fuel progress (← newline? rest)

/-- The text without a byte order mark. -/
def dropMark : List Char → List Char
  | [] => []
  | c :: rest => if c = '\uFEFF' then rest else c :: rest

/-- Reads a document as the entries of its outermost table. -/
def parse (text : String) : Option Entries :=
  lines (text.length + 1) ⟨[], []⟩ (dropMark text.toList)

end KeyCustody.Toml
