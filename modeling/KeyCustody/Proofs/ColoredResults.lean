import KeyCustody.Program
import KeyCustody.Proofs.Coloring
import KeyCustody.Proofs.ReportText

namespace KeyCustody

/-! # Results with and without colors

What a job comes to does not depend on how it is shown, and nothing is printed before it is known.
Shown with colors it fades to what is shown without them; as JSON it has none. -/

open CommandLine (Job)
open Remediation (KeyReport Report)
open Terminal (Line Unescaped fades_same fades_key)

namespace AliasImport

theorem fetchManifest_silent (url : String) : (fetchManifest url).Silent := by
  refine (Errand.silent_liftExcept _).bind fun location =>
    ((Errand.silent_call _).noting _).bind fun answer => ?_
  split
  · exact (Errand.silent_lift (Custody.silent_note _)).bind fun _ => Errand.silent_throw _
  · exact Errand.silent_liftExcept _

theorem manifestNames_silent (url : Option String) : (manifestNames url).Silent := by
  cases url with
  | none => exact Errand.silent_pure _
  | some url => exact (fetchManifest_silent url).bind fun _ => Errand.silent_pure _

theorem createPair_silent (name : String) : (createPair name).Silent :=
  (Errand.silent_lift Custody.silent_now).bind fun _ => (Errand.silent_call _).bind fun _ =>
    (Errand.silent_call _).bind fun _ =>
      (Errand.silent_lift (Custody.silent_note _)).bind fun _ => Errand.silent_pure _

theorem createAll_silent (pace : Nat) (names : List String) : (createAll pace names).Silent := by
  induction names with
  | nil => exact Errand.silent_pure _
  | cons name rest induction =>
      refine (createPair_silent name).bind fun created => ?_
      have later : Errand.Silent (do pure (created :: (← createAll pace rest))) :=
        induction.bind fun _ => Errand.silent_pure _
      dsimp only
      split
      · exact (Errand.silent_lift (Custody.silent_sleep pace)).bind fun _ => later
      · exact later

theorem run_silent (request : AliasImport) : request.run.Silent := by
  rw [run]
  split
  · exact (Errand.silent_lift (Custody.silent_note _)).bind fun _ => Errand.silent_pure _
  · exact (manifestNames_silent _).bind fun _ => (Errand.silent_call _).bind fun _ =>
      createAll_silent _ _

end AliasImport

namespace Presentation

/-- What a job comes to, before anything is printed. -/
inductive Finding where
  | listed (records : List Key.Record)
  | treated (report : Report)
  | imported (created : List CreatedAlias)
  deriving DecidableEq, Repr

namespace Finding

def json : Finding → Json
  | .listed records => (listingJson records).sorted
  | .treated report => report.json
  | .imported created => (createdJson created).sorted

def lines (colors : Bool) : Finding → List Line
  | .listed records => listingLines colors records
  | .treated report => reportLines colors report
  | .imported created => createdLines colors created

def shown (mode : Mode) (finding : Finding) : List Line :=
  if mode.json then [Terminal.plain finding.json.indented] else finding.lines mode.colors

end Finding

end Presentation

open Presentation (Finding Mode)

def CommandLine.Job.find (session : Session) : Job → Errand Finding
  | .list selection => do pure (.listed (← Remediation.select selection.ids selection.criteria))
  | .act action selection => do
      pure (.treated (← Remediation.run action selection.ids selection.criteria))
  | .importAliases options => do
      pure (.imported (← (options.request session.settings.aliasImport).run))

/-- What follows on what is printed: a report may make its command fail. -/
def CommandLine.Job.judge : Job → Finding → Errand Unit
  | .act action _, .treated report =>
      if 0 < report.failed then throw (.incomplete action.name report.failed report.matched)
      else pure ()
  | _, _ => pure ()

namespace Program

theorem find_silent (session : Session) (job : Job) : (job.find session).Silent := by
  cases job with
  | list selection => exact (Remediation.select_silent _ _).bind fun _ => Errand.silent_pure _
  | act action selection =>
      exact (Remediation.run_silent _ _ _).bind fun _ => Errand.silent_pure _
  | importAliases options => exact (AliasImport.run_silent _).bind fun _ => Errand.silent_pure _

theorem judge_silent (job : Job) (finding : Finding) : (job.judge finding).Silent := by
  unfold CommandLine.Job.judge
  split
  · split
    · exact Errand.silent_throw _
    · exact Errand.silent_pure _
  · exact Errand.silent_pure _

theorem errand_eq (session : Session) (mode : Mode) (job : Job) :
    errand session mode job = (do
      let finding ← job.find session
      Custody.printAll (finding.shown mode)
      job.judge finding) := by
  cases job with
  | list selection =>
      rw [errand, Presentation.listKeys, CommandLine.Job.find, bind_assoc]
      refine bind_congr fun records => ?_
      rw [pure_bind, Finding.shown]
      cases mode.json
      · exact bind_pure_unit.symm
      · rfl
  | act action selection =>
      rw [errand, Presentation.remediate, CommandLine.Job.find, bind_assoc]
      refine bind_congr fun records => ?_
      rw [pure_bind, Finding.shown, CommandLine.Job.judge]
      cases mode.json <;> rfl
  | importAliases options =>
      rw [errand, Presentation.importAliases, CommandLine.Job.find, bind_assoc]
      refine bind_congr fun records => ?_
      rw [pure_bind, Finding.shown]
      cases mode.json
      · exact bind_pure_unit.symm
      · rfl

/-- A job prints what it comes to, and nothing if it fails before. -/
theorem errand_prints (world : World Question Question.Reply σ) (state : σ) (session : Session)
    (mode : Mode) (job : Job) :
    printedOf ((errand session mode job).attempt.run world state).exchanges =
      Errand.linesOf (Finding.shown mode) ((job.find session).attempt.run world state).value := by
  rw [errand_eq]
  exact Errand.printedOf_bind (Finding.shown mode) (find_silent session job)
    (fun finding => Errand.prints_printAll _ (judge_silent job finding)) world state

end Program

namespace Presentation

/-- What the lines on a key say of it. -/
def recordTexts (record : Key.Record) : List String :=
  [record.keyId, record.spec, record.state.text] ++ record.aliasName.toList ++
    record.rotationEnabled.toList ++ record.tags.flatMap fun tag => [tag.key, tag.value]

/-- The texts that a finding is made of. -/
def Finding.texts : Finding → List String
  | .listed records => records.flatMap recordTexts
  | .treated report => report.action :: report.results.flatMap textsOf
  | .imported created => created.flatMap fun pair => [pair.name, pair.keyId]

variable {colors : Bool}

theorem attributeLine_fades {label : String} {value : Option String} (labelled : Unescaped label)
    (unescaped : ∀ text ∈ value.toList, Unescaped text) :
    List.Forall₂ Line.Fades (attributeLine colors label value)
      (attributeLine false label value) := by
  cases value with
  | none => exact .nil
  | some value =>
      exact .cons (.pair labelled (unescaped value (List.mem_singleton_self value))) .nil

theorem keyLines_fades {record : Key.Record}
    (unescaped : ∀ text ∈ recordTexts record, Unescaped text) :
    List.Forall₂ Line.Fades (keyLines colors record) (keyLines false record) := by
  simp only [recordTexts, List.forall_mem_append] at unescaped
  obtain ⟨⟨⟨attributes, aliased⟩, rotated⟩, tagged⟩ := unescaped
  simp only [List.forall_mem_cons] at attributes
  obtain ⟨named, spec, state, -⟩ := attributes
  rw [keyLines, keyLines]
  refine List.rel_append (List.rel_append (List.rel_append ?_
    (attributeLine_fades (by decide) aliased)) (attributeLine_fades (by decide) rotated)) ?_
  · exact .cons (.header (fades_key named))
      (.cons (.pair (by decide) spec) (.cons (.pair (by decide) state) .nil))
  · split
    · exact .nil
    · refine .cons (.pair (by decide) (Terminal.unescaped_joinWith (by decide) ?_)) .nil
      intro text listed
      obtain ⟨tag, member, rfl⟩ := List.mem_map.mp listed
      have parts := fun part one => tagged part (List.mem_flatMap.mpr ⟨tag, member, one⟩)
      simp only [List.forall_mem_cons] at parts
      exact Terminal.unescaped_append.mpr
        ⟨Terminal.unescaped_append.mpr ⟨parts.1, by decide⟩, parts.2.1⟩

theorem listingLines_fades {records : List Key.Record}
    (unescaped : ∀ record ∈ records, ∀ text ∈ recordTexts record, Unescaped text) :
    List.Forall₂ Line.Fades (listingLines colors records) (listingLines false records) := by
  rw [listingLines, listingLines]
  split
  · exact .cons (.dimmed (by decide)) .nil
  · refine List.rel_append (.cons .blank (.cons (.header ?_) (.cons .rule .nil)))
      (Terminal.forall₂_fades_flatMap fun record member => keyLines_fades (unescaped record member))
    exact (Terminal.fades_count _).append_same (by decide)

theorem resultLine_fades {action : String} {result : KeyReport} (named : Unescaped action)
    (unescaped : ∀ text ∈ textsOf result, Unescaped text) :
    (resultLine colors action result).Fades (resultLine false action result) := by
  obtain ⟨keyId, outcome, state⟩ := result
  obtain ⟨keyed, said⟩ := List.forall_mem_cons.mp unescaped
  have key : Terminal.Fades (Terminal.key colors keyId) keyId := fades_key keyed
  cases outcome with
  | done =>
      have begun := ((fades_same named).append_same (by decide : Unescaped " ")).append key
      cases state with
      | none => exact .success begun
      | some state =>
          have shown : Unescaped state.text := said _ List.mem_cons_self
          exact .success (((begun.append_same (by decide)).append_same shown).append_same
            (by decide))
  | skipped reason =>
      have given : Unescaped reason.text := said _ List.mem_cons_self
      exact .warning ((key.append_same (by decide)).append_same given)
  | failed cause =>
      have given : Unescaped cause := said _ List.mem_cons_self
      exact .error ((key.append_same (by decide)).append_same given)

theorem reportLines_fades {report : Report} (named : Unescaped report.action)
    (unescaped : ∀ result ∈ report.results, ∀ text ∈ textsOf result, Unescaped text) :
    List.Forall₂ Line.Fades (reportLines colors report) (reportLines false report) := by
  have number := Terminal.unescaped_natural
  rw [reportLines, reportLines]
  split
  · exact .cons (.dimmed (by decide)) .nil
  · refine List.rel_append (Terminal.forall₂_fades_map fun result member =>
      resultLine_fades named (unescaped result member)) ?_
    exact .cons .blank (.cons (.pair (by decide) (number _)) (.cons (.pair (by decide) (number _))
      (.cons (.pair (by decide) (number _)) .nil)))

theorem createdLines_fades {created : List CreatedAlias}
    (unescaped : ∀ pair ∈ created, ∀ text ∈ [pair.name, pair.keyId], Unescaped text) :
    List.Forall₂ Line.Fades (createdLines colors created) (createdLines false created) := by
  rw [createdLines, createdLines]
  split
  · exact .cons (.dimmed (by decide)) .nil
  · refine Terminal.forall₂_fades_map fun pair member => .success ?_
    have parts := unescaped pair member
    simp only [List.forall_mem_cons] at parts
    obtain ⟨named, keyed, -⟩ := parts
    have verb : Terminal.Fades "created alias/" "created alias/" := fades_same (by decide)
    exact ((verb.append_same named).append_same (by decide)).append (fades_key keyed)

/-- Lines with colors fade to the lines without them. -/
theorem Finding.lines_fades {finding : Finding}
    (unescaped : ∀ text ∈ finding.texts, Unescaped text) :
    List.Forall₂ Line.Fades (finding.lines colors) (finding.lines false) := by
  cases finding with
  | listed records =>
      exact listingLines_fades fun record member text said =>
        unescaped text (List.mem_flatMap.mpr ⟨record, member, said⟩)
  | treated report =>
      exact reportLines_fades (unescaped _ List.mem_cons_self) fun result member text said =>
        unescaped text (List.mem_cons_of_mem _ (List.mem_flatMap.mpr ⟨result, member, said⟩))
  | imported created =>
      exact createdLines_fades fun pair member text said =>
        unescaped text (List.mem_flatMap.mpr ⟨pair, member, said⟩)

theorem whole_memberOf {name : String} {value : Option String} :
    ∀ member ∈ Key.memberOf name value, member.2.Whole := by
  cases value with
  | none => exact nofun
  | some value => simp [Key.memberOf]

theorem whole_record (record : Key.Record) : record.json.Whole := by
  simp only [Key.Record.json, Json.whole_object, List.forall_mem_append]
  refine ⟨⟨⟨⟨⟨⟨⟨⟨?_, whole_memberOf⟩, ?_⟩, whole_memberOf⟩, whole_memberOf⟩, whole_memberOf⟩,
    whole_memberOf⟩, whole_memberOf⟩, ?_⟩
  · simp
  · simp
  · simp [Key.Tag.json]

theorem Finding.whole_json (finding : Finding) : finding.json.Whole := by
  cases finding with
  | listed records =>
      refine Json.whole_sorted ?_
      simp [listingJson, whole_record]
  | treated report => exact report.whole_json
  | imported created =>
      refine Json.whole_sorted ?_
      simp [createdJson, CreatedAlias.json]

/-- A control character in a text is escaped where the text is quoted. -/
theorem Finding.unescaped_json (finding : Finding) : Unescaped finding.json.indented := by
  intro escaped
  have inked := finding.whole_json.inked 0 _ escaped
  exact absurd inked (by decide)

theorem Finding.shown_fades {finding : Finding} (json colors : Bool)
    (unescaped : ∀ text ∈ finding.texts, Unescaped text) :
    List.Forall₂ Line.Fades (finding.shown ⟨json, colors⟩) (finding.shown ⟨json, false⟩) := by
  cases json with
  | false => exact finding.lines_fades unescaped
  | true => exact .cons (.same finding.unescaped_json) .nil

end Presentation

namespace Program

theorem showsColors_of_silenced {host : Host} {onTerminal : Bool}
    (silenced : host.environment "NO_COLOR" ≠ none) : showsColors host onTerminal = false := by
  have none : allowsColors host = false := by
    rw [allowsColors, Option.isNone_eq_false_iff, Option.isSome_iff_ne_none]
    exact silenced
  rw [showsColors, none, Bool.false_and]

/-- What a job shows on a stream with colors is what it shows where `NO_COLOR` is set once the
color sequences in it are deleted, if no text of what it comes to holds an escape character. As
JSON the two are the same, whatever the texts. -/
theorem colors_change_color_only (world : World Question Question.Reply σ) (state : σ)
    (session : Session) (job : Job) (json : Bool) (host muted : Host) (onTerminal onOther : Bool)
    (silenced : muted.environment "NO_COLOR" ≠ none) (stream : Terminal.Stream) :
    let seen (host : Host) (onTerminal : Bool) :=
      Terminal.transcript stream (printedOf
        ((errand session ⟨json, showsColors host onTerminal⟩ job).attempt.run
          world state).exchanges)
    (json = true → seen host onTerminal = seen muted onOther) ∧
    ((∀ finding, ((job.find session).attempt.run world state).value = .ok finding →
        ∀ text ∈ finding.texts, Unescaped text) →
      Terminal.uncolored (seen host onTerminal) = seen muted onOther) := by
  intro seen
  simp only [seen, errand_prints, showsColors_of_silenced silenced]
  generalize ((job.find session).attempt.run world state).value = result
  generalize showsColors host onTerminal = colors
  cases result with
  | error cause => exact ⟨fun _ => rfl, fun _ => rfl⟩
  | ok finding =>
      constructor
      · rintro rfl
        rfl
      · intro unescaped
        have fades := Finding.shown_fades json colors (unescaped finding rfl)
        exact (Terminal.fades_transcript stream fades).uncolored_eq

/-- The report on a switched key is shown in color on a terminal. -/
theorem switched_key_in_color :
    let plain : Host := ⟨fun name => if name = "TERM" then some "xterm" else none, fun _ => .absent⟩
    let muted : Host :=
      ⟨fun name => if name = "NO_COLOR" then some "" else plain.environment name, plain.files⟩
    let session : Session := ⟨{}, ⟨"", ""⟩⟩
    let job : Job := .act .enableKey ⟨[], [], []⟩
    let world := steadyWorld (Presentation.stating [{ keyId := "k1" }] "9")
    let finding : Finding :=
      .treated ⟨"enable_key", 1, [⟨"k1", .done, some (.unknown "9")⟩]⟩
    let seen (host : Host) :=
      Terminal.transcript .output (printedOf
        ((errand session ⟨false, showsColors host true⟩ job).attempt.run world ()).exchanges)
    (muted.environment "NO_COLOR" ≠ none ∧
      ((job.find session).attempt.run world ()).value = .ok finding ∧
      ∀ text ∈ finding.texts, Unescaped text) ∧
    Terminal.uncolored (seen plain) = seen muted ∧ seen plain ≠ seen muted := by
  intro plain muted session job world finding seen
  have silenced : muted.environment "NO_COLOR" ≠ none := by decide
  have comes : ((job.find session).attempt.run world ()).value = .ok finding := by
    decide +kernel
  have unescaped : ∀ text ∈ finding.texts, Unescaped text := by decide +kernel
  have law := colors_change_color_only world () session job false plain muted true true silenced
    .output
  refine ⟨⟨silenced, comes, unescaped⟩, law.2 fun found same => ?_, by decide +kernel⟩
  obtain rfl := Except.ok.inj (comes.symm.trans same)
  exact unescaped

end Program

end KeyCustody
