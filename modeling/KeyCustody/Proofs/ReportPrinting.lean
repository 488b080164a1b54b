import KeyCustody.Presentation
import KeyCustody.Proofs.Printing
import KeyCustody.Proofs.Remediation

namespace KeyCustody

/-! # Reports in print

A run prints nothing before its report is complete. The report is then printed in full, and only
after that is the command said to have failed, if a key did. -/

namespace Inventory

theorem collectTagsFrom_silent (pages offset : Nat) (tags : TagMap) :
    (collectTagsFrom pages offset tags).Silent := by
  induction pages generalizing offset tags with
  | zero => exact Custody.silent_pure tags
  | succ pages induction =>
      refine (Custody.silent_call _).bind fun answer => ?_
      cases answer with
      | error cause =>
          exact (Custody.silent_note _).bind fun _ => Custody.silent_pure tags
      | ok page =>
          dsimp only
          split
          · exact Custody.silent_pure _
          · exact induction _ _

theorem listKeys_silent : listKeys.Silent :=
  (Errand.silent_lift (collectTagsFrom_silent _ _ _)).bind fun _ =>
    ((Errand.silent_call _).noting _).bind fun _ => Errand.silent_pure _

end Inventory

namespace Rotation

theorem enable_silent (record : Key.Record) : (enable record).Silent := by
  rw [enable]
  split
  · exact (Custody.silent_note _).bind fun _ => Custody.silent_pure _
  · refine Custody.silent_token.bind fun token => (Custody.silent_call _).bind fun answer => ?_
    split
    · exact (Custody.silent_note _).bind fun _ => Custody.silent_pure _
    · split <;> exact (Custody.silent_note _).bind fun _ => Custody.silent_pure _
    · exact (Custody.silent_note _).bind fun _ => Custody.silent_pure _

theorem disable_silent (record : Key.Record) : (disable record).Silent := by
  have noted (notice : Notice) (outcome : Outcome) :
      Errand.Silent (do Custody.note notice; pure outcome) :=
    (Errand.silent_lift (Custody.silent_note notice)).bind fun _ => Errand.silent_pure outcome
  rw [disable]
  split
  · exact noted _ _
  · refine (Errand.silent_lift Custody.silent_token).bind fun token => ?_
    exact (Errand.silent_call _).bind fun _ => noted _ _

end Rotation

theorem switchKey_silent (switch : Service.Switch) (action : Action) (record : Key.Record) :
    (switchKey switch action record).Silent :=
  (Errand.silent_lift Custody.silent_token).bind fun _ => (Errand.silent_call _).bind fun _ =>
    (Errand.silent_lift (Custody.silent_note _)).bind fun _ => Errand.silent_pure _

theorem Action.apply_silent (action : Action) (record : Key.Record) :
    (action.apply record).Silent := by
  cases action with
  | enableRotation =>
      exact (Errand.silent_lift (Rotation.enable_silent record)).bind fun _ => Errand.silent_pure _
  | disableRotation => exact (Rotation.disable_silent record).bind fun _ => Errand.silent_pure _
  | enableKey => exact (switchKey_silent _ _ record).bind fun _ => Errand.silent_pure _
  | disableKey => exact (switchKey_silent _ _ record).bind fun _ => Errand.silent_pure _

namespace Remediation

theorem treat_silent (action : Action) (record : Key.Record) : (treat action record).Silent := by
  refine Custody.Silent.bind (action.apply_silent record) fun result => ?_
  cases result with
  | ok applied => exact Custody.silent_pure _
  | error cause => exact (Custody.silent_note _).bind fun _ => Custody.silent_pure _

theorem treatAll_silent (action : Action) (records : List Key.Record) :
    (treatAll action records).Silent := by
  induction records with
  | nil => exact Custody.silent_pure _
  | cons record rest induction =>
      exact (treat_silent action record).bind fun _ => induction.bind fun _ => Custody.silent_pure _

theorem select_silent (ids : List String) (criteria : List Criterion) :
    (select ids criteria).Silent := by
  rw [select_eq]
  exact Inventory.listKeys_silent.bind fun _ => Errand.silent_pure _

theorem run_silent (action : Action) (ids : List String) (criteria : List Criterion) :
    (run action ids criteria).Silent :=
  (select_silent ids criteria).bind fun selected =>
    (Errand.silent_lift (Custody.silent_note _)).bind fun _ =>
      (Errand.silent_lift (treatAll_silent action selected)).bind fun _ => Errand.silent_pure _

end Remediation

namespace Presentation

open Remediation (KeyReport Report)
open Terminal (Line Shows Unbroken)

/-- What is printed of a report. -/
def shown (mode : Mode) (report : Report) : List Line :=
  if mode.json then [Terminal.plain report.json.indented] else reportLines mode.colors report

def verdict (action : Action) (report : Report) : Except Error Unit :=
  if 0 < report.failed then .error (.incomplete action.name report.failed report.matched)
  else .ok ()

def conclude (mode : Mode) (action : Action) :
    Except Error Report → Custody (Except Error Unit)
  | .error cause => pure (.error cause)
  | .ok report => do
      Custody.printAll (shown mode report)
      pure (verdict action report)

theorem attempt_remediate (mode : Mode) (action : Action) (selection : Selection) :
    (remediate mode action selection).attempt =
      (Remediation.run action selection.ids selection.criteria).attempt.bind
        (conclude mode action) := by
  rw [remediate, Errand.attempt, ExceptT.run_bind]
  refine congrArg _ (funext fun result => ?_)
  cases result with
  | error cause => rfl
  | ok report =>
      dsimp only [conclude]
      rw [shown, verdict]
      split
      · split <;> rfl
      · split
        · exact ExceptT.run_bind_lift _ fun _ => throw _
        · exact ExceptT.run_bind_lift _ fun _ => pure ()

def shownOf (mode : Mode) : Except Error Report → List Line
  | .error _ => []
  | .ok report => shown mode report

theorem conclude_ensures (mode : Mode) (action : Action) (result : Except Error Report) :
    Dialogue.Ensures (conclude mode action result) fun exchanges value =>
      printedOf exchanges = shownOf mode result ∧ callsOf exchanges = [] ∧
        value = result.bind (verdict action) := by
  cases result with
  | error cause => exact ⟨rfl, rfl, rfl⟩
  | ok report =>
      refine (Dialogue.ensures_bind _ _ _).mpr ?_
      refine (Custody.printAll_ensures (shown mode report)).mono fun exchanges _ printed => ?_
      obtain ⟨lines, calls⟩ := printed
      change printedOf (exchanges ++ []) = _ ∧ callsOf (exchanges ++ []) = [] ∧ _
      rw [List.append_nil]
      exact ⟨lines, calls, rfl⟩

/-- The command asks for what the run asks for, and prints what the run gives. -/
theorem remediate_follows_run (world : World Question Question.Reply σ) (state : σ) (mode : Mode)
    (action : Action) (selection : Selection) :
    let ran := (remediate mode action selection).attempt.run world state
    let reported :=
      (Remediation.run action selection.ids selection.criteria).attempt.run world state
    ran.calls = reported.calls ∧ printedOf ran.exchanges = shownOf mode reported.value ∧
      ran.value = reported.value.bind (verdict action) := by
  intro ran reported
  -- The conclusion starts in the state that the run leaves the world in.
  have quiet : printedOf reported.exchanges = [] :=
    Dialogue.Ensures.holds (Remediation.run_silent action _ _) world state
  obtain ⟨printed, calls, value⟩ :=
    (conclude_ensures mode action reported.value).holds world reported.state
  have whole : ran = ((Remediation.run action selection.ids selection.criteria).attempt.bind
      (conclude mode action)).run world state :=
    congrArg (Dialogue.run world · state) (attempt_remediate mode action selection)
  rw [Dialogue.run_bind] at whole
  rw [whole, Run.calls, callsOf_append, printedOf_append]
  refine ⟨?_, ?_, value⟩
  · rw [calls, List.append_nil]
    rfl
  · rw [quiet, printed]
    rfl

theorem failed_pos_iff {report : Report} :
    0 < report.failed ↔ ∃ result ∈ report.results, result.outcome.isFailed :=
  List.countP_pos_iff

theorem verdict_eq_ok_iff {action : Action} {report : Report} :
    verdict action report = .ok () ↔ ∀ result ∈ report.results, ¬ result.outcome.isFailed := by
  rw [verdict]
  split
  · rename_i failed
    obtain ⟨result, member, bad⟩ := failed_pos_iff.mp failed
    exact iff_of_false nofun fun none => none result member bad
  · rename_i unfailed
    exact iff_of_true rfl fun result member bad => unfailed (failed_pos_iff.mpr ⟨result, member, bad⟩)

variable {colors : Bool} {name : String} {result : KeyReport} {report : Report}

/-- What a line says of a key besides the action. -/
def textsOf (result : KeyReport) : List String :=
  result.keyId ::
    match result.outcome with
    | .done => (result.state.map Key.State.text).toList
    | .skipped reason => [reason.text]
    | .failed cause => [cause]

def lineText (colors : Bool) (name : String) (result : KeyReport) : String :=
  (resultLine colors name result).text

theorem stream_resultLine (colors : Bool) (name : String) (result : KeyReport) :
    (resultLine colors name result).stream =
      if result.outcome.isFailed then .error else .output := by
  obtain ⟨keyId, outcome, state⟩ := result
  cases outcome with
  | done => cases state <;> rfl
  | skipped reason => rfl
  | failed cause => rfl

theorem unbroken_lineText (named : Unbroken name)
    (unbroken : ∀ text ∈ textsOf result, Unbroken text) :
    Unbroken (lineText colors name result) := by
  have key : Unbroken (Terminal.key colors result.keyId) :=
    (Terminal.unbroken_paint .cyan).mpr (unbroken _ List.mem_cons_self)
  have space : Unbroken " " := by decide
  have more : ∀ text ∈ (textsOf result).tail, Unbroken text := fun text member =>
    unbroken text (List.mem_cons_of_mem _ member)
  obtain ⟨keyId, outcome, state⟩ := result
  cases outcome with
  | done =>
      cases state with
      | none => exact Terminal.unbroken_success.mpr (by simp [named, space, key])
      | some state =>
          have shown : Unbroken state.text := more _ List.mem_cons_self
          have brackets : Unbroken " (" ∧ Unbroken ")" := by decide
          exact Terminal.unbroken_success.mpr (by simp [named, space, key, shown, brackets])
  | skipped reason =>
      have given : Unbroken reason.text := more _ List.mem_cons_self
      have verb : Unbroken " skipped: " := by decide
      exact Terminal.unbroken_warning.mpr (by simp [key, verb, given])
  | failed cause =>
      have given : Unbroken cause := more _ List.mem_cons_self
      have verb : Unbroken " failed: " := by decide
      exact Terminal.unbroken_error.mpr (by simp [key, verb, given])

/-- What a report in text looks like to a reader: one line for each key, those of failures on the
error stream and the others on the output, where the counts follow. -/
structure ReadsAs (colors : Bool) (report : Report) (printed : List Line) : Prop where
  failures : Shows .error printed
    ((report.results.filter fun result => result.outcome.isFailed).map
      (lineText colors report.action))
  others : Shows .output printed
    ((report.results.filter fun result => !result.outcome.isFailed).map
        (lineText colors report.action) ++
      ["", (Terminal.pair colors "done   " (toString report.done)).text,
        (Terminal.pair colors "skipped" (toString report.skipped)).text,
        (Terminal.pair colors "failed " (toString report.failed)).text])
  sum : report.done + report.skipped + report.failed = report.results.length

theorem results_on_stream {stream : Terminal.Stream} {goes : KeyReport → Bool}
    (decides : ∀ result, decide ((resultLine colors name result).stream = stream) = goes result)
    (results : List KeyReport) :
    ((results.map (resultLine colors name)).filter fun line => line.stream = stream).map Line.text =
      (results.filter goes).map (lineText colors name) := by
  rw [List.filter_map, List.map_map]
  exact congrArg (List.map _) (List.filter_congr fun result _ => decides result)

def countLines (colors : Bool) (report : Report) : List Line :=
  [Terminal.blank, Terminal.pair colors "done   " (toString report.done),
    Terminal.pair colors "skipped" (toString report.skipped),
    Terminal.pair colors "failed " (toString report.failed)]

theorem unbroken_countLines {line : Line} (member : line ∈ countLines colors report) :
    Unbroken line.text := by
  have labels : Unbroken "done   " ∧ Unbroken "skipped" ∧ Unbroken "failed " := by decide
  simp only [countLines, List.mem_cons, List.not_mem_nil, or_false] at member
  rcases member with rfl | rfl | rfl | rfl
  · exact List.not_mem_nil
  · exact Terminal.unbroken_pair.mpr ⟨labels.1, Terminal.unbroken_natural _⟩
  · exact Terminal.unbroken_pair.mpr ⟨labels.2.1, Terminal.unbroken_natural _⟩
  · exact Terminal.unbroken_pair.mpr ⟨labels.2.2, Terminal.unbroken_natural _⟩

theorem reportLines_readsAs (filled : report.results ≠ []) (named : Unbroken report.action)
    (unbroken : ∀ result ∈ report.results, ∀ text ∈ textsOf result, Unbroken text) :
    ReadsAs colors report (reportLines colors report) := by
  have lines : reportLines colors report =
      report.results.map (resultLine colors report.action) ++ countLines colors report := by
    rw [reportLines, if_neg (by simpa using filled)]
    rfl
  have single : ∀ line ∈ reportLines colors report, Unbroken line.text := by
    intro line member
    rw [lines] at member
    rcases List.mem_append.mp member with onKey | count
    · obtain ⟨result, listed, rfl⟩ := List.mem_map.mp onKey
      exact unbroken_lineText named (unbroken result listed)
    · exact unbroken_countLines count
  have shows (stream : Terminal.Stream) (goes : KeyReport → Bool)
      (decides : ∀ result,
        decide ((resultLine colors report.action result).stream = stream) = goes result) :
      Shows stream (reportLines colors report)
        ((report.results.filter goes).map (lineText colors report.action) ++
          ((countLines colors report).filter fun line => line.stream = stream).map Line.text) := by
    rw [← results_on_stream decides, ← List.map_append, ← List.filter_append, ← lines]
    exact Terminal.shows_of_unbroken fun line member _ => single line member
  constructor
  case failures =>
    have failed := shows .error (fun result => result.outcome.isFailed) fun result => by
      rw [stream_resultLine]
      cases result.outcome.isFailed <;> rfl
    rwa [show (countLines colors report).filter _ = [] from rfl, List.map_nil,
      List.append_nil] at failed
  case others =>
    exact shows .output (fun result => !result.outcome.isFailed) fun result => by
      rw [stream_resultLine]
      cases result.outcome.isFailed <;> rfl
  case sum => exact report.outcomes_add_up

/-- Whatever the provider answers, the command asks for the keys once. Where they cannot be listed
it fails, and no part of a report is printed. Otherwise the run's report on every selected key is
printed, and then the command fails exactly if a key did, with the number of such keys and of
selected ones. As text the report has one line for each key if no text has a line break. -/
theorem fails_exactly_for_failed_keys (world : World Question Question.Reply σ) (state : σ)
    (mode : Mode) (action : Action) (selection : Selection) :
    let ran := (remediate mode action selection).attempt.run world state
    let reported :=
      (Remediation.run action selection.ids selection.criteria).attempt.run world state
    ∃ (pages : List Answered) (answer : Except Error (List Key.Detail)) (acts : List Answered),
      ran.calls = pages ++ ⟨.listKeys Inventory.everySpec, answer⟩ :: acts ∧
      Inventory.PagesFrom 0 pages ∧
      match answer with
      | .error cause => ran.value = .error cause ∧ printedOf ran.exchanges = []
      | .ok details =>
          ∃ (selected : List Key.Record) (report : Report),
            selected = (Inventory.merge (Inventory.gathered pages) details).filter
              (fun record => Remediation.Selects selection.ids selection.criteria record) ∧
            reported.value = .ok report ∧ report.action = action.name ∧
            report.results.map KeyReport.keyId = selected.map Key.Record.keyId ∧
            printedOf ran.exchanges = shown mode report ∧
            (ran.value = .ok () ↔ ∀ result ∈ report.results, ¬ result.outcome.isFailed) ∧
            (0 < report.failed →
              ran.value = .error (.incomplete action.name report.failed selected.length)) ∧
            (mode.json = false → selected ≠ [] →
              (∀ result ∈ report.results, ∀ text ∈ textsOf result, Unbroken text) →
              ReadsAs mode.colors report (printedOf ran.exchanges)) := by
  intro ran reported
  obtain ⟨calls, printed, value⟩ := remediate_follows_run world state mode action selection
  obtain ⟨asked, later, split, runs⟩ :=
    Remediation.run_after_tags world state action selection.ids selection.criteria
  change ran.calls = reported.calls at calls
  change printedOf ran.exchanges = shownOf mode reported.value at printed
  change ran.value = reported.value.bind (verdict action) at value
  rw [calls, printed, value, split]
  generalize reported.value = result at runs ⊢
  cases runs with
  | unlisted cause => exact ⟨_, .error cause, [], rfl, asked, rfl, rfl⟩
  | treated details records selected joined selects acts reports acted named =>
      refine ⟨_, .ok details, acts, rfl, asked, selected, _, by rw [selects, joined], rfl, rfl,
        named, rfl, verdict_eq_ok_iff, fun failed => if_pos failed, fun text filled unbroken => ?_⟩
      have listed : reports ≠ [] := fun none => filled (by
        rw [none] at named
        exact List.map_eq_nil_iff.mp named.symm)
      have plain : Unbroken action.name := by cases action <;> decide
      rw [shownOf, shown, text]
      exact reportLines_readsAs listed plain unbroken

end Presentation

end KeyCustody
