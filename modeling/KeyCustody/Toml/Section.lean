import KeyCustody.Toml.Value

namespace KeyCustody.Toml

/-! # Reading a section into a record

A section gives fields by name, or in their order if it is an array. A field that is not
given keeps its default, and a name that is not known is passed over. A value of another
type than its field fails the whole section. -/

namespace Value

def text? : Value → Option String
  | .text value => some value
  | _ => none

/-- A whole number that is not negative. -/
def natural? : Value → Option Nat
  | .integer value => if 0 ≤ value then some value.toNat else none
  | _ => none

def items? : Value → Option (List Value)
  | .array items => some items
  | .tables entries => some (entries.reverse.map (.table .header))
  | _ => none

def texts? (value : Value) : Option (List String) := do
  (← value.items?).mapM text?

end Value

/-- A field of a record of type `σ`: its name and how a value goes into the record. -/
structure Slot (σ : Type) where
  name : String
  set : Value → σ → Option σ

/-- A field whose values are read by `read`. -/
def Slot.of (name : String) (read : Value → Option α) (put : α → σ → σ) : Slot σ :=
  ⟨name, fun value record => (read value).map fun found => put found record⟩

/-- Takes entries into a record. -/
def fill (fields : List (Slot σ)) (record : σ) : Entries → Option σ
  | [] => some record
  | (name, value) :: rest =>
      match fields.find? fun field => field.name == name with
      | none => fill fields record rest
      | some field => do fill fields (← field.set value record) rest

/-- Takes values into a record, one for each field in order. Values left over are passed
over. -/
def fillInOrder (record : σ) : List (Slot σ) → List Value → Option σ
  | field :: fields, value :: values => do fillInOrder (← field.set value record) fields values
  | _, _ => some record

/-- Reads a section into a record. A date has no fields that are known. -/
def Value.section? (fields : List (Slot σ)) (record : σ) (value : Value) : Option σ :=
  match value with
  | .inline entries => fill fields record entries
  | .table _ entries => fill fields record entries
  | .dateTime => some record
  | other => do fillInOrder record fields (← other.items?)

end KeyCustody.Toml
