import KeyCustody.Proofs.Json.Records

namespace KeyCustody.Json

/-! # What trees mean

A value has many texts: blanks may stand between its parts, and a character of a string may be
written as itself or as an escape. The members of an object keep their order, and names that occur
again. -/

variable {node : Node} {items : Items} {members : Members} {json : Json} {octets : Bytes}
  {values : List Json} {named : List (String × Json)}

mutual

inductive Node.Means : Node → Json → Prop where
  | null : Node.Means .null .null
  | boolean (value : Bool) : Node.Means (.boolean value) (.boolean value)
  | number {numeral : Numeral} {value : Number} (reads : numeral.value? = some value) :
      Node.Means (.number numeral) (.number value)
  | text {quoted : Quoted} {value : String} (reads : quoted.text = .ok value) :
      Node.Means (.text quoted) (.text value)
  | array {items : Items} {values : List Json} (means : Items.Means items values) :
      Node.Means (.array items) (.array values)
  | object {members : Members} {named : List (String × Json)}
      (means : Members.Means members named) : Node.Means (.object members) (.object named)

inductive Items.Means : Items → List Json → Prop where
  | close : Items.Means .close []
  | item {head : Node} {tail : Items} {value : Json} {values : List Json}
      (means : Node.Means head value) (others : Items.Means tail values) :
      Items.Means (.item head tail) (value :: values)

inductive Members.Means : Members → List (String × Json) → Prop where
  | close : Members.Means .close []
  | member {name : Quoted} {node : Node} {tail : Members} {text : String} {value : Json}
      {named : List (String × Json)} (reads : name.text = .ok text) (means : Node.Means node value)
      (others : Members.Means tail named) :
      Members.Means (.member name node tail) ((text, value) :: named)

end

/-- The octets are a JSON text of the value. -/
def WrittenAs (json : Json) (octets : Bytes) : Prop :=
  ∃ node, Node.IsText node octets ∧ Node.Means node json

theorem means_text_iff {text : String} :
    Node.Means node (.text text) ↔ Reader.text node = .ok text := by
  rw [Reader.text_eq_ok_iff]
  constructor
  · rintro ⟨⟩
    exact ⟨_, rfl, ‹_›⟩
  · rintro ⟨quoted, rfl, reads⟩
    exact .text reads

theorem means_null_iff : Node.Means node .null ↔ node = .null := by
  constructor
  · rintro ⟨⟩
    rfl
  · rintro rfl
    exact .null

theorem Items.Means.lists : ∀ {items : Items} {values : List Json}, Items.Means items values →
    ∃ nodes, items.Lists nodes ∧ List.Forall₂ Node.Means nodes values
  | _, _, .close => ⟨[], .close, .nil⟩
  | _, _, .item means others =>
      let ⟨nodes, lists, all⟩ := others.lists
      ⟨_ :: nodes, .item lists, .cons means all⟩

theorem Members.Means.lists : ∀ {members : Members} {named : List (String × Json)},
    Members.Means members named → ∃ nodes, members.Lists nodes ∧
      List.Forall₂ (fun node value => node.1 = value.1 ∧ Node.Means node.2 value.2) nodes named
  | _, _, .close => ⟨[], .close, .nil⟩
  | _, _, .member reads means others =>
      let ⟨nodes, lists, all⟩ := others.lists
      ⟨_ :: nodes, .member reads lists, .cons ⟨rfl, means⟩ all⟩

theorem items_means_iff : Items.Means items values ↔
    ∃ nodes, items.Lists nodes ∧ List.Forall₂ Node.Means nodes values := by
  constructor
  · exact Items.Means.lists
  · intro ⟨nodes, lists, all⟩
    induction lists generalizing values with
    | close =>
        cases all
        exact .close
    | item lists induction =>
        cases all with
        | cons means all => exact .item means (induction all)

/-- An array of texts is what a list of texts is read from. -/
theorem means_texts_iff {texts : List String} :
    Node.Means node (.array (texts.map .text)) ↔
      Reader.list Reader.text node = .ok texts := by
  have each (nodes : List Node) : List.Forall₂ Node.Means nodes (texts.map .text) ↔
      List.Forall₂ (fun node text => Reader.text node = .ok text) nodes texts := by
    simp [means_text_iff]
  rw [Reader.list_eq_ok_iff]
  constructor
  · intro means
    cases means with
    | array means =>
        obtain ⟨nodes, lists, all⟩ := means.lists
        exact ⟨_, nodes, rfl, lists, (each nodes).mp all⟩
  · intro ⟨items, nodes, isArray, lists, all⟩
    subst isArray
    exact .array (items_means_iff.mpr ⟨nodes, lists, (each nodes).mpr all⟩)

mutual

theorem Node.Means.skip {node : Node} {json : Json} :
    Node.Means node json → node.skip = .ok ()
  | .null => rfl
  | .boolean _ => rfl
  | .number _ => rfl
  | .text reads => Quoted.skip_of_text reads
  | .array means => means.skip
  | .object means => means.skip

theorem Items.Means.skip {items : Items} {values : List Json} :
    Items.Means items values → items.skip = .ok ()
  | .close => rfl
  | .item means others => Items.skip_item.mpr ⟨means.skip, others.skip⟩

theorem Members.Means.skip {members : Members} {named : List (String × Json)} :
    Members.Means members named → members.skip = .ok ()
  | .close => rfl
  | .member reads means others =>
      Members.skip_member.mpr ⟨Quoted.skip_of_text reads, means.skip, others.skip⟩

end

mutual

/-- How many arrays and objects lie within each other. -/
def depth : Json → Nat
  | .array items => itemsDepth items + 1
  | .object members => membersDepth members + 1
  | _ => 0

def itemsDepth : List Json → Nat
  | [] => 0
  | item :: rest => max (depth item) (itemsDepth rest)

def membersDepth : List (String × Json) → Nat
  | [] => 0
  | (_, value) :: rest => max (depth value) (membersDepth rest)

end

theorem itemsDepth_le {items : List Json} {bound : Nat}
    (shallow : ∀ item ∈ items, item.depth ≤ bound) : itemsDepth items ≤ bound := by
  induction items with
  | nil => exact Nat.zero_le bound
  | cons item rest induction =>
      rw [List.forall_mem_cons] at shallow
      rw [itemsDepth]
      exact Nat.max_le.mpr ⟨shallow.1, induction shallow.2⟩

theorem membersDepth_le {members : List (String × Json)} {bound : Nat}
    (shallow : ∀ member ∈ members, member.2.depth ≤ bound) : membersDepth members ≤ bound := by
  induction members with
  | nil => exact Nat.zero_le bound
  | cons member rest induction =>
      rw [List.forall_mem_cons] at shallow
      rw [membersDepth]
      exact Nat.max_le.mpr ⟨shallow.1, induction shallow.2⟩

mutual

/-- A tree that is not too deep is kept as what it means, with sorted members. -/
theorem Node.Means.value {node : Node} {json : Json} {limit : Nat} :
    Node.Means node json → json.depth ≤ limit → node.value limit = .ok json.sorted
  | .null, _ => by simp [Node.value, sorted]
  | .boolean _, _ => by simp [Node.value, sorted]
  | .number reads, _ => by simp [Node.value, sorted, reads]
  | .text reads, _ => by
      rw [Node.value, reads, sorted] <;> simp [bind, Except.bind, pure, Except.pure]
  | .array means, shallow => by
      rw [depth] at shallow
      cases limit with
      | zero => omega
      | succ limit =>
          rw [Node.value, means.values (by omega), sorted]
          rfl
  | .object means, shallow => by
      rw [depth] at shallow
      cases limit with
      | zero => omega
      | succ limit =>
          rw [Node.value, means.values (by omega), sorted]
          rfl

theorem Items.Means.values {items : Items} {values : List Json} {limit : Nat} :
    Items.Means items values → itemsDepth values ≤ limit →
      items.values limit = .ok (sortedItems values)
  | .close, _ => rfl
  | .item means others, shallow => by
      rw [itemsDepth] at shallow
      rw [Items.values, means.value (by omega), others.values (by omega)]
      rfl

theorem Members.Means.values {members : Members} {named : List (String × Json)} {limit : Nat} :
    Members.Means members named → membersDepth named ≤ limit →
      members.values limit = .ok (sortedMembers named)
  | .close, _ => rfl
  | .member reads means others, shallow => by
      rw [membersDepth] at shallow
      rw [Members.values, reads, means.value (by omega), others.values (by omega)]
      rfl

end

theorem forall₂_held {found : List (String × Node)} (all : List.Forall₂
      (fun node value => node.1 = value.1 ∧ Node.Means node.2 value.2) found named)
    (name : String) : List.Forall₂ Node.Means (held found name) (held named name) := by
  induction all with
  | nil => exact .nil
  | @cons node value found named means all induction =>
      obtain ⟨text, node⟩ := node
      obtain ⟨text, value⟩ := value
      obtain ⟨rfl, means⟩ := means
      by_cases same : text = name
      · subst same
        simp only [held_cons_same]
        exact .cons means induction
      · simp only [held_cons_other same]
        exact induction

/-- An object gives a record the values under each name, whatever else it holds. -/
theorem Node.Means.presents (means : Node.Means node (.object named)) (names : List String) :
    ∃ found, Presents names node found ∧
      ∀ name, List.Forall₂ Node.Means (found name) (held named name) := by
  cases means with
  | object means =>
      obtain ⟨nodes, lists, all⟩ := means.lists
      have whole := all.imp fun node value related => And.intro related.2.skip related
      exact ⟨_, .object lists fun member isMember _ =>
        ((List.forall₂_and_left _ _).mp whole).1 member isMember, forall₂_held all⟩

section

variable {α σ : Type} {kind : Node → α → Prop} {value : α} {found : List Node} {name : String}
  {before after : σ}

/-- A member that is given once. -/
theorem exists_of_means_one (means : List.Forall₂ Node.Means found [json]) :
    ∃ node, found = [node] ∧ Node.Means node json := by
  obtain ⟨node, _, nodeMeans, ⟨⟩, only⟩ := List.forall₂_cons_right_iff.mp means
  exact ⟨node, only, nodeMeans⟩

theorem take_may_text_eq_some_iff {put : Option String → σ → σ} (unset : put none before = before) :
    (Slot.may name (Reader.optional Reader.text) put).take found before = some after ↔
      ∃ value, MayHold (fun node text => Node.Means node (.text text)) found value ∧
        put value before = after :=
  take_may_optional_eq_some_iff (fun _ _ => means_text_iff.symm) (fun _ => nofun) unset

theorem mayHold_of_means (means : List.Forall₂ Node.Means found [json])
    (shown : ∀ node, Node.Means node json → kind node value) : MayHold kind found (some value) := by
  obtain ⟨node, rfl, nodeMeans⟩ := exists_of_means_one means
  exact .given (shown node nodeMeans)

theorem mayHold_none (means : List.Forall₂ Node.Means found []) : MayHold kind found none := by
  cases means
  exact .missing

end

end KeyCustody.Json
