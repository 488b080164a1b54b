import KeyCustody.Proofs.Json.Meaning

namespace KeyCustody.Json

/-! # What stands in the place of a member

A text has to be there, or is empty where it is left out, or is none where it is left out or `null`.
A list is empty where it is left out. What a field takes is what its place shows. -/

variable {α σ : Type} {node : Node} {values : List Node} {name one other : String}
  {before after : σ}

/-- Whether a text may be left out: never, where it is empty, or where there is none. -/
inductive Presence where
  | required
  | plain
  | optional

/-- What may stand in the place of a text. -/
inductive Presence.Shows : Presence → Option String → List Json → Prop where
  | text (presence : Presence) (text : String) : Presence.Shows presence (some text) [.text text]
  | empty : Presence.Shows .plain (some "") []
  | null : Presence.Shows .optional none [.null]
  | missing : Presence.Shows .optional none []

def Presence.ShowsIn (presence : Presence) (found : Option String) (values : List Node) : Prop :=
  ∃ shown, List.Forall₂ Node.Means values shown ∧ presence.Shows found shown

theorem required_showsIn_iff {found : Option String} : Presence.required.ShowsIn found values ↔
    ∃ value text, values = [value] ∧ Reader.text value = .ok text ∧ some text = found := by
  constructor
  · intro ⟨shown, means, shows⟩
    cases shows with
    | text presence text =>
        obtain ⟨value, only, means⟩ := exists_of_means_one means
        exact ⟨value, text, only, means_text_iff.mp means, rfl⟩
  · intro given
    obtain ⟨value, text, only, read, same⟩ := given
    subst only same
    exact ⟨_, .cons (means_text_iff.mpr read) .nil, .text _ text⟩

theorem plain_showsIn_iff {found : Option String} : Presence.plain.ShowsIn found values ↔
    values = [] ∧ found = some "" ∨
      ∃ value text, values = [value] ∧ Reader.text value = .ok text ∧ some text = found := by
  constructor
  · intro ⟨shown, means, shows⟩
    cases shows with
    | text presence text =>
        obtain ⟨value, only, means⟩ := exists_of_means_one means
        exact .inr ⟨value, text, only, means_text_iff.mp means, rfl⟩
    | empty => exact .inl ⟨List.forall₂_nil_right_iff.mp means, rfl⟩
  · intro given
    obtain ⟨nothing, same⟩ | ⟨value, text, only, read, same⟩ := given
    · subst nothing same
      exact ⟨_, .nil, .empty⟩
    · subst only same
      exact ⟨_, .cons (means_text_iff.mpr read) .nil, .text _ text⟩

theorem optional_showsIn_iff {found : Option String} : Presence.optional.ShowsIn found values ↔
    MayHold (fun node text => Node.Means node (.text text)) values found := by
  constructor
  · intro ⟨shown, means, shows⟩
    cases shows with
    | text presence text => exact mayHold_of_means means fun _ means => means
    | null =>
        obtain ⟨value, only, means⟩ := exists_of_means_one means
        rw [only, means_null_iff.mp means]
        exact .null
    | missing => exact mayHold_none means
  · intro holds
    cases holds with
    | missing => exact ⟨_, .nil, .missing⟩
    | null => exact ⟨_, .cons .null .nil, .null⟩
    | given means => exact ⟨_, .cons means .nil, .text _ _⟩

theorem take_required_eq_some_iff {put : String → σ → σ} :
    (Slot.must name Reader.text put).take values before = some after ↔
      ∃ text, Presence.required.ShowsIn (some text) values ∧ put text before = after := by
  simp only [take_must_eq_some_iff, required_showsIn_iff, Option.some.injEq]
  grind

theorem take_plain_eq_some_iff {put : String → σ → σ} (unset : put "" before = before) :
    (Slot.may name Reader.text put).take values before = some after ↔
      ∃ text, Presence.plain.ShowsIn (some text) values ∧ put text before = after := by
  simp only [take_may_eq_some_iff, plain_showsIn_iff, Option.some.injEq]
  grind

theorem take_optional_eq_some_iff {put : Option String → σ → σ} (unset : put none before = before) :
    (Slot.may name (Reader.optional Reader.text) put).take values before = some after ↔
      ∃ found, Presence.optional.ShowsIn found values ∧ put found before = after := by
  simp only [take_may_text_eq_some_iff unset, optional_showsIn_iff]

/-- A value of the type of a text. -/
inductive Presence.Admits : Presence → Node → Prop where
  | text {presence : Presence} {node : Node} {text : String}
      (means : Node.Means node (.text text)) : Presence.Admits presence node
  | null : Presence.Admits .optional .null

theorem Presence.ShowsIn.admits {presence : Presence} {found : Option String}
    (shows : presence.ShowsIn found values) : ∀ value ∈ values, presence.Admits value := by
  obtain ⟨shown, means, shows⟩ := shows
  cases shows with
  | text presence text =>
      obtain ⟨value, only, means⟩ := exists_of_means_one means
      simpa [only] using Presence.Admits.text means
  | null =>
      obtain ⟨value, only, means⟩ := exists_of_means_one means
      simpa [only, means_null_iff.mp means] using Presence.Admits.null
  | empty => simp [List.forall₂_nil_right_iff.mp means]
  | missing => simp [List.forall₂_nil_right_iff.mp means]

theorem Presence.ShowsIn.length_le {presence : Presence} {found : Option String}
    (shows : presence.ShowsIn found values) : values.length ≤ 1 := by
  obtain ⟨shown, means, shows⟩ := shows
  rw [means.length_eq]
  cases shows <;> simp

theorem Presence.ShowsIn.given {found : Option String}
    (shows : Presence.required.ShowsIn found values) : values ≠ [] := by
  obtain ⟨value, text, only, -⟩ := required_showsIn_iff.mp shows
  simp [only]

/-- An array in its place, or nothing there where there is nothing in it. -/
inductive GivesEach (kind : Node → α → Prop) : List Node → List α → Prop where
  | missing : GivesEach kind [] []
  | listed {items : Items} {nodes : List Node} {found : List α} (lists : items.Lists nodes)
      (shown : List.Forall₂ kind nodes found) : GivesEach kind [.array items] found

theorem take_list_eq_some_iff {read : Reader α} {kind : Node → α → Prop} {put : List α → σ → σ}
    (reads : ∀ node value, read node = .ok value ↔ kind node value)
    (unset : put [] before = before) :
    (Slot.may name (Reader.list read) put).take values before = some after ↔
      ∃ found, GivesEach kind values found ∧ put found before = after := by
  simp only [take_may_eq_some_iff, Reader.list_eq_ok_iff, reads]
  constructor
  · intro taken
    obtain ⟨absent, same⟩ | ⟨node, found, only, ⟨items, nodes, isArray, lists, shown⟩, same⟩ := taken
    · subst absent same
      exact ⟨[], .missing, unset⟩
    · subst only isArray
      exact ⟨found, .listed lists shown, same⟩
  · intro ⟨found, gives, same⟩
    cases gives with
    | missing => exact .inl ⟨rfl, unset.symm.trans same⟩
    | listed lists shown => exact .inr ⟨_, found, rfl, ⟨_, _, rfl, lists, shown⟩, same⟩

theorem natural_eq_ok_iff {count : Nat} :
    Reader.natural node = .ok count ↔ Node.Means node (.number (.integer count)) := by
  constructor
  · intro read
    cases node with
    | number numeral =>
        rw [Reader.natural] at read
        split at read
        · rename_i value reads
          split at read
          · rename_i positive
            cases read
            rw [← Int.toNat_of_nonneg positive] at reads
            exact .number reads
          · cases read
        · cases read
        · cases read
    | _ => cases read
  · intro means
    cases means with
    | number reads =>
        rw [Reader.natural, reads]
        exact if_pos (Int.natCast_nonneg count)

theorem Reader.whole_natural : Reader.Whole Reader.natural := fun _ _ read =>
  (natural_eq_ok_iff.mp read).skip

/-- A tree that gives a text under the first name, and may leave out an empty one under the other. -/
def GivesPair (one other : String) (node : Node) (first second : String) : Prop :=
  ∃ values, Presents [one, other] node values ∧
    Presence.required.ShowsIn (some first) (values one) ∧
    Presence.plain.ShowsIn (some second) (values other)

section

variable {putOne putOther : String → σ → σ}
  (independent : [Slot.must one Reader.text putOne, Slot.may other Reader.text putOther].Pairwise
    Slot.Independent)
include independent

theorem record_pair_eq_ok_iff {blank record : σ}
    (unset : ∀ first, putOther "" (putOne first blank) = putOne first blank) :
    Reader.record [.must one Reader.text putOne, .may other Reader.text putOther] blank node =
        .ok record ↔
      ∃ first second, GivesPair one other node first second ∧
        putOther second (putOne first blank) = record := by
  rw [record_eq_ok_iff independent]
  constructor
  · intro ⟨values, presents, filled⟩
    obtain ⟨_, taken, filled⟩ := Option.bind_eq_some_iff.mp filled
    obtain ⟨_, takenOther, ⟨⟩⟩ := Option.bind_eq_some_iff.mp filled
    obtain ⟨first, shows, rfl⟩ := take_required_eq_some_iff.mp taken
    obtain ⟨second, showsOther, rfl⟩ := (take_plain_eq_some_iff (unset first)).mp takenOther
    exact ⟨first, second, ⟨values, presents, shows, showsOther⟩, rfl⟩
  · intro ⟨first, second, ⟨values, presents, shows, showsOther⟩, same⟩
    refine ⟨values, presents, Option.bind_eq_some_iff.mpr
      ⟨_, take_required_eq_some_iff.mpr ⟨first, shows, rfl⟩, ?_⟩⟩
    exact Option.bind_eq_some_iff.mpr
      ⟨_, (take_plain_eq_some_iff (unset first)).mpr ⟨second, showsOther, same⟩, rfl⟩

theorem whole_record_pair {blank : σ} :
    Reader.Whole
      (Reader.record [.must one Reader.text putOne, .may other Reader.text putOther] blank) := by
  refine Reader.whole_record independent ?_
  simp only [List.forall_mem_cons, List.not_mem_nil, false_implies, implies_true, and_true]
  exact ⟨Reader.whole_text.must _ _, Reader.whole_text.may _ _⟩

end

end KeyCustody.Json
