import KeyCustody.Inventory
import KeyCustody.Rotation
import KeyCustody.Selection

namespace KeyCustody

/-! # Remediation

A run selects records, applies one action to each of them in turn, and reports on every
one. A failure on one key is that key's outcome and the run goes on; only a failed
listing of keys ends it. -/

/-- What an action did to a key. Only switching a key gives a state. -/
structure Applied where
  outcome : Outcome
  state : Option Key.State
  deriving DecidableEq, Repr

def Applied.of (outcome : Outcome) : Applied := ⟨outcome, none⟩

/-- Switches a key on or off, whatever its record says. -/
def switchKey (switch : Service.Switch) (action : Action) (record : Key.Record) :
    Errand Service.KeyStatus := do
  let token ← Custody.token
  let status ← Errand.call (.setKey switch record.keyId token)
  Custody.note (.succeeded action)
  pure status

namespace Action

/-- Applies an action to a key. -/
def apply (action : Action) (record : Key.Record) : Errand Applied :=
  match action with
  | .enableRotation => do pure (.of (← Rotation.enable record))
  | .disableRotation => do pure (.of (← Rotation.disable record))
  | .enableKey => do
      let status ← switchKey .on .enableKey record
      pure ⟨.done, some (.ofCode status.state)⟩
  | .disableKey => do
      let status ← switchKey .off .disableKey record
      pure ⟨.done, some (.ofCode status.state)⟩

end Action

namespace Remediation

structure KeyReport where
  keyId : String
  outcome : Outcome
  state : Option Key.State
  deriving DecidableEq, Repr

structure Report where
  action : String
  matched : Nat
  results : List KeyReport
  deriving DecidableEq, Repr

namespace Report

def done (report : Report) : Nat := report.results.countP fun result => result.outcome.isDone

def skipped (report : Report) : Nat :=
  report.results.countP fun result => result.outcome.isSkipped

def failed (report : Report) : Nat :=
  report.results.countP fun result => result.outcome.isFailed

end Report

def KeyReport.json (report : KeyReport) : Json :=
  .object
    ([("key_id", .text report.keyId), ("outcome", report.outcome.json)] ++
      match report.state with
      | some state => [("key_state", .text state.code)]
      | none => [])

def Report.json (report : Report) : Json :=
  .object
    [("action", .text report.action), ("matched", .number (.integer report.matched)),
      ("results", .array (report.results.map KeyReport.json))]

/-- The records with one of the ids, or every record if there are none, that all criteria
accept. -/
def select (ids : List String) (criteria : List Criterion) : Errand (List Key.Record) := do
  let records ← if ids.isEmpty then Inventory.listKeys else Inventory.getKeys ids
  pure (Criterion.keep criteria records)

/-- Applies an action to one record and reports on it. -/
def treat (action : Action) (record : Key.Record) : Custody KeyReport := do
  match ← (action.apply record).attempt with
  | .ok applied => pure ⟨record.keyId, applied.outcome, applied.state⟩
  | .error cause =>
      Custody.note .keyFailed
      pure ⟨record.keyId, .failed cause.message, none⟩

def treatAll (action : Action) : List Key.Record → Custody (List KeyReport)
  | [] => pure []
  | record :: rest => do
      let report ← treat action record
      pure (report :: (← treatAll action rest))

/-- Applies an action to every selected record. -/
def run (action : Action) (ids : List String) (criteria : List Criterion) : Errand Report := do
  let selected ← select ids criteria
  Custody.note .running
  let results ← treatAll action selected
  pure ⟨action.name, selected.length, results⟩

end Remediation

end KeyCustody
