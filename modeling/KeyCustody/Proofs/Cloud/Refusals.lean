import KeyCustody.Cloud.KeyService
import KeyCustody.Proofs.Json.Writing
import KeyCustody.Proofs.Text.Trimming

namespace KeyCustody.Cloud.KeyService

/-! # What a refusal says

A refusal keeps the status of the answer and the id of the request. What it says of its cause is
read from the body: a cause that lies within the body counts alone, else the body's own. Where
nothing is said, the body is the message as it came. -/

open Json (Node MayHold Presents Reader Slot)

variable {node : Node} {cause : Cause} {refusal : Refusal} {body : Bytes} {c m : String}

/-- A tree that gives the code and the message of a cause. -/
def Cause.Laid (node : Node) (cause : Cause) : Prop :=
  ∃ values, Presents ["error_code", "error_msg"] node values ∧
    MayHold (fun node text => node.Means (.text text)) (values "error_code") cause.code ∧
    MayHold (fun node text => node.Means (.text text)) (values "error_msg") cause.detail

/-- A tree that gives a cause that lies within it, and its own code and message. -/
def Refusal.Laid (node : Node) (refusal : Refusal) : Prop :=
  ∃ values, Presents ["error", "error_code", "error_msg"] node values ∧
    MayHold Cause.Laid (values "error") refusal.inner ∧
    MayHold (fun node text => node.Means (.text text)) (values "error_code") refusal.outer.code ∧
    MayHold (fun node text => node.Means (.text text)) (values "error_msg") refusal.outer.detail

/-- The body is a JSON text that is laid out as a refusal. -/
def Tells (body : Bytes) (refusal : Refusal) : Prop :=
  ∃ node, Node.IsText node body ∧ Refusal.Laid node refusal

theorem Cause.not_laid_null (cause : Cause) : ¬ Cause.Laid .null cause := by
  rintro ⟨values, ⟨⟩, -⟩

theorem Cause.fields_independent : Cause.fields.Pairwise Slot.Independent :=
  List.pairwise_pair.mpr <|
    Json.independent_of_puts (by decide) (fun _ _ => rfl) (fun _ _ => rfl) fun _ _ _ => rfl

theorem Cause.read_eq_ok_iff :
    Reader.record Cause.fields ⟨none, none⟩ node = .ok cause ↔ Cause.Laid node cause := by
  rw [Json.record_eq_ok_iff Cause.fields_independent]
  refine exists_congr fun values => and_congr_right fun _ => ?_
  constructor
  · intro filled
    obtain ⟨_, first, filled⟩ := Option.bind_eq_some_iff.mp filled
    obtain ⟨_, second, ⟨⟩⟩ := Option.bind_eq_some_iff.mp filled
    obtain ⟨code, codeHeld, rfl⟩ := (Json.take_may_text_eq_some_iff rfl).mp first
    obtain ⟨detail, detailHeld, rfl⟩ := (Json.take_may_text_eq_some_iff rfl).mp second
    exact ⟨codeHeld, detailHeld⟩
  · rintro ⟨code, detail⟩
    refine Option.bind_eq_some_iff.mpr
      ⟨_, (Json.take_may_text_eq_some_iff rfl).mpr ⟨_, code, rfl⟩, ?_⟩
    exact Option.bind_eq_some_iff.mpr
      ⟨_, (Json.take_may_text_eq_some_iff rfl).mpr ⟨_, detail, rfl⟩, rfl⟩

theorem Refusal.fields_independent : Refusal.fields.Pairwise Slot.Independent := by
  simp only [Refusal.fields, List.pairwise_cons, List.mem_cons, List.not_mem_nil, or_false,
    forall_eq_or_imp, forall_eq, false_implies, implies_true, List.Pairwise.nil, and_true]
  refine ⟨⟨?_, ?_⟩, ?_⟩ <;>
    exact Json.independent_of_puts (by decide) (fun _ _ => rfl) (fun _ _ => rfl) fun _ _ _ => rfl

theorem Refusal.read_eq_ok_iff : Refusal.reader node = .ok refusal ↔ Refusal.Laid node refusal := by
  rw [Refusal.reader, Json.record_eq_ok_iff Refusal.fields_independent]
  refine exists_congr fun values => and_congr_right fun _ => ?_
  have takeInner {after : Refusal} :
      (Slot.may "error" (Reader.optional (Reader.record Cause.fields ⟨none, none⟩))
        fun value refusal => { refusal with inner := value }).take (values "error") .blank =
          some after ↔ ∃ found, MayHold Cause.Laid (values "error") found ∧
            { Refusal.blank with inner := found } = after :=
    Json.take_may_optional_eq_some_iff (fun _ _ => Cause.read_eq_ok_iff) Cause.not_laid_null rfl
  constructor
  · intro filled
    obtain ⟨_, first, filled⟩ := Option.bind_eq_some_iff.mp filled
    obtain ⟨_, second, filled⟩ := Option.bind_eq_some_iff.mp filled
    obtain ⟨_, third, ⟨⟩⟩ := Option.bind_eq_some_iff.mp filled
    obtain ⟨inner, innerHeld, rfl⟩ := takeInner.mp first
    obtain ⟨code, codeHeld, rfl⟩ := (Json.take_may_text_eq_some_iff rfl).mp second
    obtain ⟨detail, detailHeld, rfl⟩ := (Json.take_may_text_eq_some_iff rfl).mp third
    exact ⟨innerHeld, codeHeld, detailHeld⟩
  · rintro ⟨inner, code, detail⟩
    refine Option.bind_eq_some_iff.mpr ⟨_, takeInner.mpr ⟨_, inner, rfl⟩, ?_⟩
    refine Option.bind_eq_some_iff.mpr
      ⟨_, (Json.take_may_text_eq_some_iff rfl).mpr ⟨_, code, rfl⟩, ?_⟩
    exact Option.bind_eq_some_iff.mpr
      ⟨_, (Json.take_may_text_eq_some_iff rfl).mpr ⟨_, detail, rfl⟩, rfl⟩

theorem Refusal.whole_reader : Reader.Whole Refusal.reader := by
  have text := Reader.whole_text.optional
  have cause : Reader.Whole (Reader.record Cause.fields ⟨none, none⟩) :=
    Reader.whole_record Cause.fields_independent (by
      simp only [Cause.fields, List.forall_mem_cons, List.not_mem_nil, false_implies, implies_true,
        and_true]
      exact ⟨text.may _ _, text.may _ _⟩)
  refine Reader.whole_record Refusal.fields_independent ?_
  simp only [Refusal.fields, List.forall_mem_cons, List.not_mem_nil, false_implies, implies_true,
    and_true]
  exact ⟨cause.optional.may _ _, text.may _ _, text.may _ _⟩

theorem Refusal.run_eq_ok_iff : Refusal.reader.run body = .ok refusal ↔ Tells body refusal := by
  rw [Refusal.whole_reader.run_eq_ok_iff]
  exact exists_congr fun node => and_congr_right fun _ => Refusal.read_eq_ok_iff

def flat (c m : String) : Json := .object [("error_code", .text c), ("error_msg", .text m)]

def nested (c m : String) : Json := .object [("error", flat c m)]

theorem Cause.laid_flat (means : node.Means (flat c m)) : Cause.Laid node ⟨some c, some m⟩ := by
  obtain ⟨values, presents, held⟩ := means.presents ["error_code", "error_msg"]
  exact ⟨values, presents, Json.mayHold_of_means (held "error_code") fun _ means => means,
    Json.mayHold_of_means (held "error_msg") fun _ means => means⟩

theorem Refusal.laid_flat (means : node.Means (flat c m)) :
    Refusal.Laid node ⟨none, some c, some m⟩ := by
  obtain ⟨values, presents, held⟩ := means.presents ["error", "error_code", "error_msg"]
  exact ⟨values, presents, Json.mayHold_none (held "error"),
    Json.mayHold_of_means (held "error_code") fun _ means => means,
    Json.mayHold_of_means (held "error_msg") fun _ means => means⟩

theorem Refusal.laid_nested (means : node.Means (nested c m)) :
    Refusal.Laid node ⟨some ⟨some c, some m⟩, none, none⟩ := by
  obtain ⟨values, presents, held⟩ := means.presents ["error", "error_code", "error_msg"]
  exact ⟨values, presents, Json.mayHold_of_means (held "error") fun _ => Cause.laid_flat,
    Json.mayHold_none (held "error_code"), Json.mayHold_none (held "error_msg")⟩

/-- What a body says of the cause of a refusal. Its own text is the message where it says none. -/
theorem refused_of_tells (status : Nat) (requestId : Option String) (tells : Tells body refusal) :
    refused status requestId body =
      ⟨some status, refusal.cause.code, refusal.cause.detail.getD
        (String.ofList (Text.trim (Text.ofOctetsLossy body).toList)), requestId⟩ := by
  rw [refused, Refusal.run_eq_ok_iff.mpr tells]
  rfl

theorem refused_of_silent (status : Nat) (requestId : Option String)
    (silent : ¬ ∃ refusal, Tells body refusal) :
    refused status requestId body =
      ⟨some status, none, String.ofList (Text.trim (Text.ofOctetsLossy body).toList),
        requestId⟩ := by
  rw [refused]
  cases read : Refusal.reader.run body with
  | ok refusal => exact absurd ⟨refusal, Refusal.run_eq_ok_iff.mp read⟩ silent
  | error fault => rfl

theorem written_nested (c m : String) :
    (nested c m).WrittenAs (Text.octets (nested c m).compact) :=
  Json.writtenAs_compact (by simp [nested, flat, Json.ReadsBack, Json.membersReadBack])

theorem written_flat (c m : String) : (flat c m).WrittenAs (Text.octets (flat c m).compact) :=
  Json.writtenAs_compact (by simp [flat, Json.ReadsBack, Json.membersReadBack])

end KeyCustody.Cloud.KeyService
