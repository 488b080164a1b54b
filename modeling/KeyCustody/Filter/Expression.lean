import KeyCustody.Error
import KeyCustody.Filter.Basic
import KeyCustody.Text.Blank

namespace KeyCustody.Filter

/-! # Filter expressions

    field=v       equal to v
    field!=v      different from v, or absent
    field=a|b     one of a and b
    field!=a|b    none of a and b
    field?        present
    !field        absent

The forms are tried from the outside in: a leading `!`, a trailing `?`, the first `!=`,
the first `=`. Blanks around a field and around each value of a comparison are cut. -/

/-- A refused expression is quoted as it was given. -/
def refusal (expression reason : String) : Error :=
  .settings (.invalidValue "filter" ("'" ++ expression ++ "': " ++ reason))

/-- The first `!=` or else the first `=`: the field, whether it is negated, the values. -/
def comparison? (text : List Char) : Option (List Char × Bool × List Char) :=
  match Text.breakAt ['!', '='] text with
  | some (field, values) => some (field, true, values)
  | none => (Text.breakAt ['='] text).map fun halves => (halves.1, false, halves.2)

def valuesOf (text : List Char) : List String :=
  (Text.fields '|' text).map fun value => String.ofList (Text.trim value)

def comparisonTest (negated several : Bool) : Test :=
  match negated, several with
  | false, false => .equal
  | false, true => .oneOf
  | true, false => .differ
  | true, true => .noneOf

/-- The name in `!name` or `name?`. It is not cut, and must not hold a comparison. -/
def bareField (test : Test) (name : List Char) : Option Filter :=
  if name.isEmpty || name.contains '=' then none
  else some ⟨String.ofList name, test, []⟩

/-- Reads an expression whose outer blanks are cut, or says which form it fails. -/
def parseForm (text : List Char) : Except String Filter :=
  match text with
  | '!' :: name => (bareField .absent name).elim (.error "expected !field") .ok
  | _ =>
      if text.getLast? = some '?' then
        (bareField .present text.dropLast).elim (.error "expected field?") .ok
      else
        match comparison? text with
        | none => .error "expected field=value"
        | some (field, negated, values) =>
            let field := Text.trim field
            if field.isEmpty then .error "empty field name"
            else
              let values := valuesOf values
              .ok ⟨String.ofList field, comparisonTest negated (1 < values.length), values⟩

/-- Reads an expression. -/
def parse (expression : String) : Except Error Filter :=
  (parseForm (Text.trim expression.toList)).mapError (refusal expression)

/-- Writes a filter as an expression. -/
def write (filter : Filter) : String :=
  match filter.test with
  | .absent => "!" ++ filter.path
  | .present => filter.path ++ "?"
  | .equal => filter.path ++ "=" ++ Text.joinWith "|" filter.values
  | .oneOf => filter.path ++ "=" ++ Text.joinWith "|" filter.values
  | .differ => filter.path ++ "!=" ++ Text.joinWith "|" filter.values
  | .noneOf => filter.path ++ "!=" ++ Text.joinWith "|" filter.values

end KeyCustody.Filter
