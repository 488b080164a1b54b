import KeyCustody.Filter.Basic

namespace KeyCustody

/-! # Selections

Which records a command works on: those with one of the given ids, if ids are given, that
every criterion accepts. A criterion is a filter with the flag it came under, which plays
no part in what it accepts. -/

inductive Criterion where
  | value (filter : Filter)
  | allKeysDisable (filter : Filter)
  deriving DecidableEq, Repr

namespace Criterion

def name : Criterion → String
  | .value _ => "value"
  | .allKeysDisable _ => "all_keys_disable"

def filter : Criterion → Filter
  | .value filter => filter
  | .allKeysDisable filter => filter

def accepts (criterion : Criterion) (record : Key.Record) : Bool :=
  criterion.filter.accepts record

/-- The records that every criterion accepts, in their order. -/
def keep (criteria : List Criterion) (records : List Key.Record) : List Key.Record :=
  records.filter fun record => criteria.all fun criterion => criterion.accepts record

end Criterion

structure Selection where
  ids : List String
  filters : List Filter
  allKeysDisable : List Filter
  deriving DecidableEq, Repr

/-- The criteria of a selection, in the order of their flags. -/
def Selection.criteria (selection : Selection) : List Criterion :=
  selection.filters.map .value ++ selection.allKeysDisable.map .allKeysDisable

end KeyCustody
