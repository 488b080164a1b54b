import KeyCustody.Proofs.Json.Indentation
import KeyCustody.Proofs.KeyMerge
import KeyCustody.Proofs.ReportPrinting

namespace KeyCustody

/-! # What the text of a report tells

Two runs whose reports are printed as the same JSON text gave the same report. A state is written
as its code, which tells the state because a run takes states from codes only. -/

namespace Key.State

/-- The state is the one that its code stands for. -/
def Decoded (state : State) : Prop := state = .ofCode state.code

theorem decoded_ofCode (code : String) : (ofCode code).Decoded :=
  congrArg ofCode (code_ofCode code).symm

theorem Decoded.eq_of_code_eq {first second : State} (decoded : first.Decoded)
    (otherDecoded : second.Decoded) (same : first.code = second.code) : first = second :=
  decoded.trans ((congrArg ofCode same).trans otherDecoded.symm)

end Key.State

theorem Outcome.json_injective {first second : Outcome} (same : first.json = second.json) :
    first = second := by
  rcases first with _ | (_ | _) | _ <;> rcases second with _ | (_ | _) | _ <;>
    simp_all [Outcome.json]

theorem Outcome.whole_json (outcome : Outcome) : outcome.json.Whole := by
  rcases outcome with _ | (_ | _) | _ <;> simp [Outcome.json]

namespace Remediation

/-- The state of the key, if there is one, was read from a code. -/
def KeyReport.Decoded (report : KeyReport) : Prop := ∀ state ∈ report.state, state.Decoded

theorem KeyReport.eq_of_json_eq {first second : KeyReport} (decoded : first.Decoded)
    (otherDecoded : second.Decoded) (same : first.json = second.json) : first = second := by
  obtain ⟨keyId, outcome, state⟩ := first
  obtain ⟨otherId, otherOutcome, otherState⟩ := second
  obtain ⟨ids, members⟩ := List.cons.inj (Json.object.inj same)
  obtain ⟨outcomes, states⟩ := List.cons.inj members
  obtain rfl : keyId = otherId := Json.text.inj (Prod.mk.inj ids).2
  obtain rfl : outcome = otherOutcome := Outcome.json_injective (Prod.mk.inj outcomes).2
  cases state with
  | none =>
      cases otherState with
      | none => rfl
      | some other => cases states
  | some state =>
      cases otherState with
      | none => cases states
      | some other =>
          have codes : state.code = other.code :=
            Json.text.inj (Prod.mk.inj (List.cons.inj states).1).2
          rw [(decoded state rfl).eq_of_code_eq (otherDecoded other rfl) codes]

def Report.Decoded (report : Report) : Prop := ∀ result ∈ report.results, result.Decoded

theorem results_eq_of_json_eq {results others : List KeyReport}
    (decoded : ∀ result ∈ results, result.Decoded)
    (otherDecoded : ∀ result ∈ others, result.Decoded)
    (same : results.map KeyReport.json = others.map KeyReport.json) : results = others := by
  induction results generalizing others with
  | nil => exact (List.map_eq_nil_iff.mp same.symm).symm
  | cons result rest induction =>
      cases others with
      | nil => cases same
      | cons other others =>
          rw [List.forall_mem_cons] at decoded otherDecoded
          obtain ⟨first, later⟩ := List.cons.inj same
          rw [KeyReport.eq_of_json_eq decoded.1 otherDecoded.1 first,
            induction decoded.2 otherDecoded.2 later]

theorem Report.eq_of_json_eq {first second : Report} (decoded : first.Decoded)
    (otherDecoded : second.Decoded) (same : first.json = second.json) : first = second := by
  obtain ⟨action, matched, results⟩ := first
  obtain ⟨otherAction, otherMatched, otherResults⟩ := second
  obtain ⟨actions, members⟩ := List.cons.inj (Json.object.inj same)
  obtain ⟨counts, lists⟩ := List.cons.inj members
  obtain rfl : action = otherAction := Json.text.inj (Prod.mk.inj actions).2
  obtain rfl : matched = otherMatched :=
    Int.ofNat.inj (Json.Number.integer.inj (Json.number.inj (Prod.mk.inj counts).2))
  obtain rfl : results = otherResults := results_eq_of_json_eq decoded otherDecoded
    (Json.array.inj (Prod.mk.inj (List.cons.inj lists).1).2)
  rfl

theorem KeyReport.whole_json (report : KeyReport) : report.json.Whole := by
  obtain ⟨keyId, outcome, state⟩ := report
  cases state <;> simp [KeyReport.json, outcome.whole_json]

theorem Report.whole_json (report : Report) : report.json.Whole := by
  simp [Report.json, KeyReport.whole_json]

theorem apply_decoded (action : Action) (record : Key.Record) :
    (action.apply record).Ensures fun _ result =>
      ∀ applied, result = .ok applied → ∀ state ∈ applied.state, state.Decoded := by
  refine (action.apply_settles record).mono fun calls result settles => ?_
  rintro applied made state taken
  cases settles with
  | refused reason refuses =>
      cases made
      cases taken
  | done accepts token reply =>
      cases made
      cases action with
      | enableRotation => cases taken
      | disableRotation => cases taken
      | enableKey =>
          cases taken
          exact Key.State.decoded_ofCode _
      | disableKey =>
          cases taken
          exact Key.State.decoded_ofCode _
  | unchanged accepts turnsOn token cause bad =>
      cases made
      cases taken
  | failed accepts token cause other =>
      cases action with
      | enableRotation =>
          cases made
          cases taken
      | disableRotation => cases made
      | enableKey => cases made
      | disableKey => cases made

theorem treat_decoded (action : Action) (record : Key.Record) :
    (treat action record).Ensures fun _ report => report.Decoded := by
  rw [treat, Custody.ensures_bind]
  refine (apply_decoded action record).mono fun calls result decoded => ?_
  cases result with
  | ok applied => exact decoded applied rfl
  | error cause =>
      simp only [Custody.ensures_bind, Custody.ensures_note, Custody.ensures_pure]
      exact fun state taken => absurd taken (Option.not_mem_none state)

theorem treatAll_decoded (action : Action) (records : List Key.Record) :
    (treatAll action records).Ensures fun _ results => ∀ result ∈ results, result.Decoded := by
  induction records with
  | nil => exact nofun
  | cons record rest induction =>
      simp only [treatAll, Custody.ensures_bind, Custody.ensures_pure]
      refine (treat_decoded action record).mono fun calls result decoded => ?_
      exact induction.mono fun later results rest => List.forall_mem_cons.mpr ⟨decoded, rest⟩

theorem run_decoded (action : Action) (ids : List String) (criteria : List Criterion) :
    (run action ids criteria).Ensures fun _ result =>
      ∀ report, result = .ok report → report.Decoded := by
  rw [run]
  refine (select_ensures ids criteria).bind (fun calls selected found => ?_)
    (fun calls cause found => ?_)
  · simp only [Errand.ensures_bind, Errand.ensures_lift, Custody.ensures_note,
      Errand.ensures_pure]
    refine (treatAll_decoded action selected).mono fun later results decoded report made => ?_
    cases made
    exact decoded
  · intro report made
    cases made

end Remediation

namespace Presentation

open Remediation (Report)

/-- Two commands print the same JSON text exactly if their runs gave the same report: the same
action and count, and in order the same keys with the same outcomes and states. -/
theorem texts_tell_reports (world : World Question Question.Reply σ) (state : σ)
    (other : World Question Question.Reply τ) (last : τ) (colors otherColors : Bool)
    (action another : Action) (selection narrowed : Selection) {report retold : Report}
    (gives : ((Remediation.run action selection.ids selection.criteria).attempt.run
      world state).value = .ok report)
    (regives : ((Remediation.run another narrowed.ids narrowed.criteria).attempt.run
      other last).value = .ok retold) :
    let told := (remediate ⟨true, colors⟩ action selection).attempt.run world state
    let again := (remediate ⟨true, otherColors⟩ another narrowed).attempt.run other last
    Terminal.transcript .output (printedOf told.exchanges) =
        Terminal.transcript .output (printedOf again.exchanges) ↔
      report = retold := by
  intro told again
  have printed := (remediate_follows_run world state ⟨true, colors⟩ action selection).2.1
  have reprinted := (remediate_follows_run other last ⟨true, otherColors⟩ another narrowed).2.1
  rw [gives] at printed
  rw [regives] at reprinted
  constructor
  · intro same
    rw [printed, reprinted] at same
    have texts : report.json.indented = retold.json.indented := by
      simpa [shownOf, shown, Terminal.transcript, Terminal.plain] using same
    have decoded := (Remediation.run_decoded action _ _).holds world state report gives
    have otherDecoded := (Remediation.run_decoded another _ _).holds other last retold regives
    exact Remediation.Report.eq_of_json_eq decoded otherDecoded
      (Json.indented_injective report.whole_json retold.whole_json texts)
  · rintro rfl
    rw [printed, reprinted]
    rfl

/-- A provider that lists one key, and answers that it is in the given state when it is
switched. -/
def stating (details : List Key.Detail) (code : String) :
    (asked : Service.Call) → Except Error asked.Reply
  | .setKey _ keyId _ => .ok ⟨keyId, code⟩
  | asked => Inventory.catalog [] details asked

/-- A code with nothing in it, and one with a quote, a backslash and a control character, are told
from one another. -/
theorem codes_told_apart :
    let details : List Key.Detail := [{ keyId := "schlüssel" }]
    let empty := steadyWorld (stating details "")
    let odd := steadyWorld (stating details "\"\\\x01")
    let selection : Selection := ⟨[], [], []⟩
    let run := Remediation.run .enableKey selection.ids selection.criteria
    let reported (code : String) : Report :=
      ⟨"enable_key", 1, [⟨"schlüssel", .done, some (.unknown code)⟩]⟩
    let told := (remediate ⟨true, true⟩ .enableKey selection).attempt.run empty ()
    let again := (remediate ⟨true, false⟩ .enableKey selection).attempt.run odd ()
    ((run.attempt.run empty ()).value = .ok (reported "") ∧
      (run.attempt.run odd ()).value = .ok (reported "\"\\\x01")) ∧
    Terminal.transcript .output (printedOf told.exchanges) ≠
      Terminal.transcript .output (printedOf again.exchanges) := by
  intro details empty odd selection run reported told again
  have gives : (run.attempt.run empty ()).value = .ok (reported "") := by decide +kernel
  have regives : (run.attempt.run odd ()).value = .ok (reported "\"\\\x01") := by
    decide +kernel
  exact ⟨⟨gives, regives⟩, (texts_tell_reports empty () odd () true false .enableKey .enableKey
    selection selection gives regives).not.mpr (by decide)⟩

end Presentation

end KeyCustody
