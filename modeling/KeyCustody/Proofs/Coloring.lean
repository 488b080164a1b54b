import KeyCustody.Proofs.Printing
import Mathlib.Data.List.Forall2

namespace KeyCustody.Terminal

/-! # Text without its colors

A color sequence is `ESC [`, a number and `m`. Deleting every such sequence from lines with colors
gives the lines without colors, if the texts in them hold no escape character. -/

/-- The length of the color sequence that a text starts with, if it starts with one. -/
def sequenceLength? : List Char → Option Nat
  | '\x1b' :: '[' :: rest =>
      let number := rest.takeWhile Char.isDigit
      if number ≠ [] ∧ (rest.drop number.length).head? = some 'm' then some (number.length + 3)
      else none
  | _ => none

/-- A text with its color sequences deleted, read from left to right. The first argument counts
the characters of a sequence that are still to be deleted. -/
def uncoloredFrom : Nat → List Char → List Char
  | _, [] => []
  | skipped + 1, _ :: rest => uncoloredFrom skipped rest
  | 0, c :: rest =>
      match sequenceLength? (c :: rest) with
      | some length => uncoloredFrom (length - 1) rest
      | none => c :: uncoloredFrom 0 rest

def uncolored (text : String) : String := String.ofList (uncoloredFrom 0 text.toList)

def Unescaped (text : String) : Prop := '\x1b' ∉ text.toList

instance (text : String) : Decidable (Unescaped text) := inferInstanceAs (Decidable (¬ _))

variable {first second text bare other : String} {colors : Bool}

theorem uncoloredFrom_eq_drop (count : Nat) (text : List Char) :
    uncoloredFrom count text = uncoloredFrom 0 (text.drop count) := by
  induction count generalizing text with
  | zero => rfl
  | succ count induction =>
      cases text with
      | nil => rfl
      | cons c rest => exact induction rest

theorem uncoloredFrom_escape (code : Nat) (rest : List Char) :
    uncoloredFrom 0 ((escape code).toList ++ rest) = uncoloredFrom 0 rest := by
  have spelled : (escape code).toList ++ rest =
      '\x1b' :: '[' :: (Nat.toDigits 10 code ++ 'm' :: rest) := by
    simp [escape]
  have number : (Nat.toDigits 10 code ++ 'm' :: rest).takeWhile Char.isDigit =
      Nat.toDigits 10 code := by
    rw [List.takeWhile_append_of_pos fun c => Nat.isDigit_of_mem_toDigits (by decide) (by decide),
      List.takeWhile_cons_of_neg (by decide), List.append_nil]
  have length : sequenceLength? ((escape code).toList ++ rest) =
      some ((Nat.toDigits 10 code).length + 3) := by
    rw [spelled, sequenceLength?, number, if_pos]
    exact ⟨Nat.toDigits_ne_nil, by simp⟩
  rw [spelled] at length ⊢
  rw [uncoloredFrom, length]
  exact (uncoloredFrom_eq_drop _ _).trans (by simp)

theorem uncoloredFrom_cons {c : Char} (visible : c ≠ '\x1b') (rest : List Char) :
    uncoloredFrom 0 (c :: rest) = c :: uncoloredFrom 0 rest := by
  have none : sequenceLength? (c :: rest) = none := by
    unfold sequenceLength?
    split
    · rename_i same
      exact absurd (List.cons.inj same).1 visible
    · rfl
  rw [uncoloredFrom, none]

/-- Wherever the colored text stands, deleting the sequences in it leaves the bare one. -/
def Fades (text bare : String) : Prop :=
  ∀ rest, uncoloredFrom 0 (text.toList ++ rest) = bare.toList ++ uncoloredFrom 0 rest

theorem Fades.uncolored_eq (fades : Fades text bare) : uncolored text = bare := by
  have whole := fades []
  rw [List.append_nil, uncoloredFrom, List.append_nil] at whole
  rw [uncolored, whole, String.ofList_toList]

theorem fades_same (unescaped : Unescaped text) : Fades text text := by
  intro rest
  rw [Unescaped] at unescaped
  generalize text.toList = letters at unescaped
  induction letters with
  | nil => rfl
  | cons c later induction =>
      rw [List.mem_cons, not_or] at unescaped
      rw [List.cons_append, uncoloredFrom_cons (Ne.symm unescaped.1), induction unescaped.2]
      rfl

theorem Fades.append (fades : Fades text bare) (later : Fades first second) :
    Fades (text ++ first) (bare ++ second) := by
  intro rest
  rw [String.toList_append, String.toList_append, List.append_assoc, fades, later,
    List.append_assoc]

theorem Fades.append_same (fades : Fades text bare) (unescaped : Unescaped other) :
    Fades (text ++ other) (bare ++ other) := fades.append (fades_same unescaped)

theorem fades_escape (code : Nat) : Fades (escape code) "" := fun rest =>
  uncoloredFrom_escape code rest

theorem Fades.paint (fades : Fades text bare) (style : Style) :
    Fades (paint colors style text) (paint false style bare) := by
  cases colors with
  | false => exact fades
  | true =>
      have styled := ((fades_escape style.code).append fades).append (fades_escape 0)
      simpa [Terminal.paint] using styled

/-- A sequence has a number. -/
example : uncolored (paint true .bold (key true "k1") ++ "\x1b[m") = "k1\x1b[m" := by decide

theorem unescaped_append :
    Unescaped (first ++ second) ↔ Unescaped first ∧ Unescaped second := not_mem_append_iff

theorem unescaped_natural (number : Nat) : Unescaped (toString number) :=
  not_mem_natural (by decide) number

theorem unescaped_joinWith {between : String} {texts : List String} (apart : Unescaped between)
    (unescaped : ∀ text ∈ texts, Unescaped text) : Unescaped (Text.joinWith between texts) := by
  intro escaped
  rw [Text.joinWith, String.toList_intercalate] at escaped
  rcases Text.mem_intercalate escaped with gap | ⟨piece, found, inside⟩
  · exact apart gap
  · obtain ⟨text, listed, rfl⟩ := List.mem_map.mp found
    exact unescaped text listed inside

/-- The lines go to one stream, and one fades to the other. -/
structure Line.Fades (line bare : Line) : Prop where
  stream : line.stream = bare.stream
  text : Terminal.Fades line.text bare.text

namespace Line.Fades

theorem same {line : Line} (unescaped : Unescaped line.text) : line.Fades line :=
  ⟨rfl, fades_same unescaped⟩

theorem marked {mark : String} {style : Style} {stream : Stream} (unescaped : Unescaped mark)
    (fades : Terminal.Fades text bare) :
    (Line.mk stream (paint colors style mark ++ " " ++ text)).Fades
      ⟨stream, paint false style mark ++ " " ++ bare⟩ :=
  ⟨rfl, (((fades_same unescaped).paint style).append_same (by decide)).append fades⟩

theorem success (fades : Terminal.Fades text bare) :
    (success colors text).Fades (success false bare) := marked (by decide) fades

theorem error (fades : Terminal.Fades text bare) :
    (error colors text).Fades (error false bare) := marked (by decide) fades

theorem warning (fades : Terminal.Fades text bare) :
    (warning colors text).Fades (warning false bare) := marked (by decide) fades

theorem header (fades : Terminal.Fades text bare) :
    (header colors text).Fades (header false bare) := ⟨rfl, fades.paint _⟩

theorem dimmed (unescaped : Unescaped text) : (dimmed colors text).Fades (dimmed false text) :=
  ⟨rfl, (fades_same unescaped).paint _⟩

theorem pair (labelled : Unescaped first) (unescaped : Unescaped second) :
    (pair colors first second).Fades (pair false first second) := by
  have margin : Terminal.Fades "  " "  " := fades_same (by decide)
  exact ⟨rfl, ((margin.append ((fades_same labelled).paint _)).append_same (by decide)).append
    ((fades_same unescaped).paint _)⟩

theorem rule : (rule colors).Fades (rule false) := by
  refine ⟨rfl, (fades_same ?_).paint _⟩
  rw [Unescaped, String.toList_ofList]
  exact fun escaped => absurd (List.eq_of_mem_replicate escaped) (by decide)

theorem blank : blank.Fades blank := same (by decide)

end Line.Fades

/-- A key fades to its id within any line. -/
theorem fades_key (unescaped : Unescaped text) : Fades (key colors text) text :=
  (fades_same unescaped).paint .cyan

theorem fades_count (number : Nat) : Fades (count colors number) (toString number) :=
  (fades_same (unescaped_natural number)).paint .bold

/-- What lines look like on a stream fades as they do. -/
theorem fades_transcript {lines others : List Line} (stream : Stream)
    (fades : List.Forall₂ Line.Fades lines others) :
    Fades (transcript stream lines) (transcript stream others) := by
  induction fades with
  | nil => exact fun _ => rfl
  | @cons line bare lines others one rest induction =>
      have ended : Fades (line.text ++ "\n") (bare.text ++ "\n") :=
        one.text.append_same (by decide)
      simp only [transcript, List.filter_cons, one.stream] at induction ⊢
      split
      · simpa using ended.append induction
      · exact induction

theorem forall₂_fades_map {values : List α} {write plain : α → Line}
    (fades : ∀ value ∈ values, (write value).Fades (plain value)) :
    List.Forall₂ Line.Fades (values.map write) (values.map plain) :=
  List.forall₂_map_left_iff.mpr (List.forall₂_map_right_iff.mpr (List.forall₂_same.mpr fades))

theorem forall₂_fades_flatMap {values : List α} {write plain : α → List Line}
    (fades : ∀ value ∈ values, List.Forall₂ Line.Fades (write value) (plain value)) :
    List.Forall₂ Line.Fades (values.flatMap write) (values.flatMap plain) := by
  induction values with
  | nil => exact .nil
  | cons value rest induction =>
      rw [List.forall_mem_cons] at fades
      exact List.rel_append fades.1 (induction fades.2)

end KeyCustody.Terminal
