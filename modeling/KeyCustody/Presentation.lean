import KeyCustody.AliasImport
import KeyCustody.Remediation

namespace KeyCustody.Presentation

/-! # What commands print

Each result is shown as lines for people or as one JSON document. -/

open Terminal (Line)

def tagText (tag : Key.Tag) : String := tag.key ++ "=" ++ tag.value

/-- A labelled line for an attribute that is there. -/
def attributeLine (colors : Bool) (label : String) : Option String → List Line
  | some value => [Terminal.pair colors label value]
  | none => []

def keyLines (colors : Bool) (record : Key.Record) : List Line :=
  [Terminal.header colors (Terminal.key colors record.keyId),
    Terminal.pair colors "spec     " record.spec,
    Terminal.pair colors "state    " record.state.text] ++
  attributeLine colors "alias    " record.aliasName ++
  attributeLine colors "rotation " record.rotationEnabled ++
  if record.tags.isEmpty then []
  else [Terminal.pair colors "tags     " (Text.joinWith ", " (record.tags.map tagText))]

/-- A listing of keys. -/
def listingLines (colors : Bool) (records : List Key.Record) : List Line :=
  if records.isEmpty then [Terminal.dimmed colors "no keys matched"]
  else
    [Terminal.blank,
      Terminal.header colors (Terminal.count colors records.length ++ " keys"),
      Terminal.rule colors] ++
    records.flatMap (keyLines colors)

def listingJson (records : List Key.Record) : Json :=
  .object
    [("keys", .array (records.map Key.Record.json)),
      ("count", .number (.integer records.length))]

/-- The line for one key of a report. Failures go to the error stream. -/
def resultLine (colors : Bool) (action : String) (result : Remediation.KeyReport) : Line :=
  let key := Terminal.key colors result.keyId
  match result.outcome with
  | .done =>
      match result.state with
      | some state => Terminal.success colors (action ++ " " ++ key ++ " (" ++ state.text ++ ")")
      | none => Terminal.success colors (action ++ " " ++ key)
  | .skipped reason => Terminal.warning colors (key ++ " skipped: " ++ reason.text)
  | .failed cause => Terminal.error colors (key ++ " failed: " ++ cause)

/-- A report on a run. -/
def reportLines (colors : Bool) (report : Remediation.Report) : List Line :=
  if report.results.isEmpty then [Terminal.dimmed colors "no keys matched"]
  else
    report.results.map (resultLine colors report.action) ++
    [Terminal.blank,
      Terminal.pair colors "done   " (toString report.done),
      Terminal.pair colors "skipped" (toString report.skipped),
      Terminal.pair colors "failed " (toString report.failed)]

def createdLine (colors : Bool) (created : CreatedAlias) : Line :=
  Terminal.success colors
    ("created alias/" ++ created.name ++ " -> " ++ Terminal.key colors created.keyId)

/-- The aliases that an import created. -/
def createdLines (colors : Bool) (created : List CreatedAlias) : List Line :=
  if created.isEmpty then [Terminal.dimmed colors "no aliases to create"]
  else created.map (createdLine colors)

def createdJson (created : List CreatedAlias) : Json :=
  .object
    [("created", .array (created.map CreatedAlias.json)),
      ("count", .number (.integer created.length))]

/-- How a command shows its result. -/
structure Mode where
  json : Bool
  colors : Bool
  deriving DecidableEq, Repr

/-- Lists the selected keys. The members of the JSON document are sorted. -/
def listKeys (mode : Mode) (selection : Selection) : Errand Unit := do
  let records ← Remediation.select selection.ids selection.criteria
  if mode.json then Custody.print (Terminal.plain (listingJson records).sorted.indented)
  else Custody.printAll (listingLines mode.colors records)

/-- Applies an action to the selected keys. A report in which a key failed is printed in
full before it makes the command fail. -/
def remediate (mode : Mode) (action : Action) (selection : Selection) : Errand Unit := do
  let report ← Remediation.run action selection.ids selection.criteria
  if mode.json then Custody.print (Terminal.plain report.json.indented)
  else Custody.printAll (reportLines mode.colors report)
  if 0 < report.failed then
    throw (.incomplete action.name report.failed report.matched)

/-- Creates the missing aliases. The members of the JSON document are sorted. -/
def importAliases (mode : Mode) (request : AliasImport) : Errand Unit := do
  let created ← request.run
  if mode.json then Custody.print (Terminal.plain (createdJson created).sorted.indented)
  else Custody.printAll (createdLines mode.colors created)

end KeyCustody.Presentation
