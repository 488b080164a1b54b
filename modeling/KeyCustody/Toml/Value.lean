namespace KeyCustody.Toml

/-! # TOML values and the building of tables

A table is written in pieces: under headers, through dotted keys, or in line. How it was
first written decides what may be added to it later. A header completes a table that only
stood in the path of another header; a dotted key adds to tables made by dotted keys; a
table in line is complete. -/

/-- How a table came to be. -/
inductive Origin where
  /-- In the path of a header. -/
  | implied
  /-- In a dotted key. -/
  | dotted
  /-- By a header of its own. -/
  | header
  deriving DecidableEq, Repr

inductive Value where
  | text (value : String)
  | integer (value : Int)
  | real
  | boolean (value : Bool)
  | dateTime
  | array (items : List Value)
  | inline (entries : List (String × Value))
  | table (origin : Origin) (entries : List (String × Value))
  /-- Tables under headers in double brackets, the newest first. -/
  | tables (entries : List (List (String × Value)))

abbrev Entries := List (String × Value)

/-- Puts a value in the place of an entry that is there. -/
def replaceEntry (key : String) (value : Value) : Entries → Entries
  | [] => []
  | (other, held) :: rest =>
      if other = key then (other, value) :: rest else (other, held) :: replaceEntry key value rest

/-- Adds a value under a dotted key. `parent` tells how the table came to be in which the
last part is put: a dotted key puts it into a table made by dotted keys. -/
def addDotted : List String → Value → Entries → Option Entries
  | [], _, _ => none
  | [key], value, entries =>
      match entries.lookup key with
      | none => some (entries ++ [(key, value)])
      | some _ => none
  | key :: rest, value, entries =>
      let last := rest.length = 1
      match entries.lookup key with
      | none => do
          let inner ← addDotted rest value []
          pure (entries ++ [(key, .table .dotted inner)])
      | some (.table .dotted inner) => do
          let inner ← addDotted rest value inner
          pure (replaceEntry key (.table .dotted inner) entries)
      | some (.table .implied inner) =>
          if last then none
          else do
            let inner ← addDotted rest value inner
            pure (replaceEntry key (.table .implied inner) entries)
      | some (.tables (newest :: older)) =>
          if last then none
          else do
            let newest ← addDotted rest value newest
            pure (replaceEntry key (.tables (newest :: older)) entries)
      | some _ => none

/-- Changes the table at a path of headers. Tables that are missing are implied. -/
def alterAt (change : Entries → Option Entries) : List String → Entries → Option Entries
  | [], entries => change entries
  | key :: rest, entries =>
      match entries.lookup key with
      | none => do
          let inner ← alterAt change rest []
          pure (entries ++ [(key, .table .implied inner)])
      | some (.table origin inner) => do
          let inner ← alterAt change rest inner
          pure (replaceEntry key (.table origin inner) entries)
      | some (.tables (newest :: older)) => do
          let newest ← alterAt change rest newest
          pure (replaceEntry key (.tables (newest :: older)) entries)
      | some _ => none

/-- Opens the table of a header in its parent. -/
def openTable (key : String) (entries : Entries) : Option Entries :=
  match entries.lookup key with
  | none => some (entries ++ [(key, .table .header [])])
  | some (.table .implied inner) => some (replaceEntry key (.table .header inner) entries)
  | some _ => none

/-- Opens another table of a header in double brackets in its parent. -/
def openNext (key : String) (entries : Entries) : Option Entries :=
  match entries.lookup key with
  | none => some (entries ++ [(key, .tables [[]])])
  | some (.tables older) => some (replaceEntry key (.tables ([] :: older)) entries)
  | some _ => none

end KeyCustody.Toml
