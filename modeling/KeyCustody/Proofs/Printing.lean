import KeyCustody.Proofs.Text.Fields
import KeyCustody.Proofs.Transcript

namespace KeyCustody

/-! # What is printed

The lines that a program prints are among its exchanges. What is shown on a stream can be cut
into its lines again as long as no line has a line break within it. -/

def Exchange.printed? : Exchange Question Question.Reply → Option Terminal.Line
  | ⟨.host (.print line), _⟩ => some line
  | _ => none

def printedOf (exchanges : List (Exchange Question Question.Reply)) : List Terminal.Line :=
  exchanges.filterMap Exchange.printed?

theorem printedOf_append (before after : List (Exchange Question Question.Reply)) :
    printedOf (before ++ after) = printedOf before ++ printedOf after := List.filterMap_append

namespace Custody

/-- Whatever is replied, nothing is printed. -/
def Silent (program : Custody α) : Prop :=
  Dialogue.Ensures program fun exchanges _ => printedOf exchanges = []

theorem silent_pure (value : α) : Silent (pure value) := rfl

theorem silent_call (asked : Service.Call) : (call asked).Silent := fun _ => rfl

theorem silent_now : now.Silent := fun _ => rfl

theorem silent_sleep (milliseconds : Nat) : (sleep milliseconds).Silent := fun _ => rfl

theorem silent_token : token.Silent := fun _ => rfl

theorem silent_note (notice : Notice) : (note notice).Silent := fun _ => rfl

theorem Silent.bind {first : Custody α} {next : α → Custody β} (before : first.Silent)
    (after : ∀ value, (next value).Silent) : Silent (first >>= next) := by
  refine (Dialogue.ensures_bind first next _).mpr ?_
  refine before.mono fun earlier value quiet => (after value).mono fun later last still => ?_
  rw [printedOf_append, quiet, still, List.append_nil]

theorem printAll_ensures (lines : List Terminal.Line) :
    Dialogue.Ensures (printAll lines) fun exchanges _ =>
      printedOf exchanges = lines ∧ callsOf exchanges = [] := by
  induction lines with
  | nil => exact ⟨rfl, rfl⟩
  | cons line rest induction =>
      intro _
      refine Dialogue.Ensures.mono induction fun later _ printed => ?_
      exact ⟨congrArg (line :: ·) printed.1, printed.2⟩

end Custody

namespace Errand

def Silent (errand : Errand α) : Prop := errand.attempt.Silent

theorem silent_pure (value : α) : Silent (pure value) := rfl

theorem silent_throw (cause : Error) : Silent (throw cause : Errand α) := rfl

theorem silent_liftExcept (result : Except Error α) : Silent (liftM result : Errand α) := rfl

theorem silent_call (asked : Service.Call) : (call asked).Silent := Custody.silent_call asked

theorem silent_lift {program : Custody α} (quiet : program.Silent) :
    Silent (liftM program : Errand α) :=
  quiet.bind fun _ => Custody.silent_pure _

theorem Silent.bind {first : Errand α} {next : α → Errand β} (before : first.Silent)
    (after : ∀ value, (next value).Silent) : Silent (first >>= next) := by
  rw [Silent, attempt, ExceptT.run_bind]
  refine Custody.Silent.bind before fun result => ?_
  cases result with
  | ok value => exact after value
  | error cause => exact Custody.silent_pure _

theorem Silent.noting {errand : Errand α} (quiet : errand.Silent) (notice : Notice) :
    (errand.noting notice).Silent := by
  refine Custody.Silent.bind quiet fun result => ?_
  cases result with
  | ok value => exact Custody.silent_pure _
  | error cause => exact (Custody.silent_note notice).bind fun _ => Custody.silent_pure _

/-- The lines for a value, and none for a failure. -/
def linesOf (shown : α → List Terminal.Line) : Except Error α → List Terminal.Line
  | .ok value => shown value
  | .error _ => []

/-- An errand that prints after its first part prints what that part calls for, if it succeeds. -/
theorem printedOf_bind (shown : α → List Terminal.Line) {first : Errand α} {next : α → Errand β}
    (quiet : first.Silent)
    (prints : ∀ value, Dialogue.Ensures (next value).attempt fun exchanges _ =>
      printedOf exchanges = shown value)
    (world : World Question Question.Reply σ) (state : σ) :
    printedOf ((first >>= next).attempt.run world state).exchanges =
      linesOf shown (first.attempt.run world state).value := by
  have before : printedOf (first.attempt.run world state).exchanges = [] :=
    Dialogue.Ensures.holds quiet world state
  cases gives : (first.attempt.run world state).value with
  | ok value =>
      rw [run_bind_ok gives, printedOf_append, before, (prints value).holds world]
      rfl
  | error cause =>
      rw [run_bind_error gives, before]
      rfl

theorem prints_printAll (lines : List Terminal.Line) {next : Errand β} (quiet : next.Silent) :
    Dialogue.Ensures (do Custody.printAll lines; next : Errand β).attempt fun exchanges _ =>
      printedOf exchanges = lines := by
  have parts : (do Custody.printAll lines; next : Errand β).attempt =
      (Custody.printAll lines).bind fun _ => next.attempt :=
    ExceptT.run_bind_lift _ fun _ => next
  rw [parts]
  refine (Dialogue.ensures_bind _ _ _).mpr ?_
  refine (Custody.printAll_ensures lines).mono fun before _ printed => ?_
  refine Dialogue.Ensures.mono quiet fun later _ still => ?_
  rw [printedOf_append, printed.1, still, List.append_nil]

end Errand

namespace Terminal

def Unbroken (text : String) : Prop := '\n' ∉ text.toList

instance (text : String) : Decidable (Unbroken text) := inferInstanceAs (Decidable (¬ _))

variable {first second text : String} {colors : Bool}

theorem not_mem_append_iff {c : Char} :
    c ∉ (first ++ second).toList ↔ c ∉ first.toList ∧ c ∉ second.toList := by
  rw [String.toList_append, List.mem_append, not_or]

theorem not_mem_natural {c : Char} (noDigit : ¬ c.isDigit) (number : Nat) :
    c ∉ (toString number).toList := by
  rw [Nat.toString_eq_ofList_toDigits, String.toList_ofList]
  exact fun member => noDigit (Nat.isDigit_of_mem_toDigits (by decide) (by decide) member)

@[simp] theorem unbroken_append :
    Unbroken (first ++ second) ↔ Unbroken first ∧ Unbroken second := not_mem_append_iff

theorem unbroken_natural (number : Nat) : Unbroken (toString number) :=
  not_mem_natural (by decide) number

theorem unbroken_escape (code : Nat) : Unbroken (escape code) := by
  rw [escape, unbroken_append, unbroken_append]
  exact ⟨⟨by decide, unbroken_natural code⟩, by decide⟩

@[simp] theorem unbroken_paint (style : Style) :
    Unbroken (paint colors style text) ↔ Unbroken text := by
  cases colors with
  | false => exact Iff.rfl
  | true => simp [paint, unbroken_escape]

@[simp] theorem unbroken_success : Unbroken (success colors text).text ↔ Unbroken text := by
  have mark : Unbroken "✓" ∧ Unbroken " " := by decide
  simp [success, mark]

@[simp] theorem unbroken_error : Unbroken (error colors text).text ↔ Unbroken text := by
  have mark : Unbroken "✗" ∧ Unbroken " " := by decide
  simp [error, mark]

@[simp] theorem unbroken_warning : Unbroken (warning colors text).text ↔ Unbroken text := by
  have mark : Unbroken "⚠" ∧ Unbroken " " := by decide
  simp [warning, mark]

@[simp] theorem unbroken_pair :
    Unbroken (pair colors first second).text ↔ Unbroken first ∧ Unbroken second := by
  have gap : Unbroken "  " := by decide
  simp [pair, gap]

/-- A reader finds these texts on a stream, each on a line that is ended. -/
def Shows (stream : Stream) (lines : List Line) (texts : List String) : Prop :=
  Text.fields '\n' (transcript stream lines).toList = texts.map String.toList ++ [[]]

theorem toList_join_ended (texts : List String) :
    (String.join (texts.map fun text => text ++ "\n")).toList =
      ['\n'].intercalate (texts.map String.toList ++ [[]]) := by
  rw [String.toList_join, List.flatMap_map]
  induction texts with
  | nil => rfl
  | cons text rest induction =>
      have last : rest.map String.toList ++ [[]] ≠ [] := by simp
      rw [List.flatMap_cons, induction, String.toList_append, List.map_cons, List.cons_append,
        List.intercalate_cons_of_ne_nil last]
      rfl

theorem shows_of_unbroken {stream : Stream} {lines : List Line}
    (unbroken : ∀ line ∈ lines, line.stream = stream → Unbroken line.text) :
    Shows stream lines ((lines.filter fun line => line.stream = stream).map Line.text) := by
  have single : ∀ piece ∈ ((lines.filter fun line => line.stream = stream).map
      Line.text).map String.toList ++ [[]], '\n' ∉ piece := by
    intro piece member
    rcases List.mem_append.mp member with printed | last
    · obtain ⟨text, shown, rfl⟩ := List.mem_map.mp printed
      obtain ⟨line, kept, rfl⟩ := List.mem_map.mp shown
      obtain ⟨listed, goes⟩ := List.mem_filter.mp kept
      exact unbroken line listed (of_decide_eq_true goes)
    · rw [List.mem_singleton.mp last]
      exact List.not_mem_nil
  have joined := toList_join_ended ((lines.filter fun line => line.stream = stream).map Line.text)
  rw [List.map_map] at joined
  rw [Shows, transcript, Text.fields_eq_splitOn]
  refine (congrArg (List.splitOn '\n') joined).trans ?_
  exact List.splitOn_intercalate '\n' single (by simp)

end Terminal

end KeyCustody
