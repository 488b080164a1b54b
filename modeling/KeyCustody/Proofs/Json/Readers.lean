import KeyCustody.Proofs.Json.Reading
import Mathlib.Data.List.Forall2

namespace KeyCustody.Json

/-! # What readers take

A reader that takes no tree with a fault answers a text exactly as it answers the tree that the text
is of, and takes nothing else. -/

variable {α : Type} {marks : List Mark} {fault : Option Fault} {octets : Bytes} {quoted : Quoted}
  {node : Node} {items : Items} {read : Reader α} {depth : Nat}

theorem bind_eq_ok {ε α β : Type} {first : Except ε α} {next : α → Except ε β} {value : β} :
    first >>= next = .ok value ↔ ∃ held, first = .ok held ∧ next held = .ok value := by
  cases first <;> simp [bind, Except.bind]

theorem map_eq_ok {ε α β : Type} {first : Except ε α} {f : α → β} {value : β} :
    first.map f = .ok value ↔ ∃ held, first = .ok held ∧ f held = value := by
  cases first <;> simp [Except.map]

/-- The nodes of an array in order. -/
inductive Items.Lists : Items → List Node → Prop where
  | close : Items.Lists .close []
  | item {head : Node} {tail : Items} {nodes : List Node} (lists : Items.Lists tail nodes) :
      Items.Lists (.item head tail) (head :: nodes)

/-- The members of an object in order, by the texts of their names. -/
inductive Members.Lists : Members → List (String × Node) → Prop where
  | close : Members.Lists .close []
  | member {name : Quoted} {text : String} {value : Node} {tail : Members}
      {members : List (String × Node)} (named : name.text = .ok text)
      (lists : Members.Lists tail members) :
      Members.Lists (.member name value tail) ((text, value) :: members)

theorem Items.Lists.unique {nodes others : List Node} (lists : items.Lists nodes)
    (otherLists : items.Lists others) : nodes = others := by
  induction lists generalizing others with
  | close =>
      cases otherLists
      rfl
  | item lists induction =>
      cases otherLists with
      | item otherLists => rw [induction otherLists]

theorem Members.Lists.unique {members : Members} {named others : List (String × Node)}
    (lists : members.Lists named) (otherLists : members.Lists others) : named = others := by
  induction lists generalizing others with
  | close =>
      cases otherLists
      rfl
  | member reads lists induction =>
      cases otherLists with
      | member otherReads otherLists =>
          rw [Except.ok.inj (reads.symm.trans otherReads), induction otherLists]

theorem Reader.list_eq_ok_iff {values : List α} :
    Reader.list read node = .ok values ↔
      ∃ items nodes, node = .array items ∧ items.Lists nodes ∧
        List.Forall₂ (fun node value => read node = .ok value) nodes values := by
  have listed (items : Items) (values : List α) : Reader.Items.list read items = .ok values ↔
      ∃ nodes, items.Lists nodes ∧
        List.Forall₂ (fun node value => read node = .ok value) nodes values := by
    fun_induction Reader.Items.list read items generalizing values with
    | case1 =>
        constructor
        · rintro ⟨⟩
          exact ⟨[], .close, .nil⟩
        · rintro ⟨nodes, ⟨⟩, ⟨⟩⟩
          rfl
    | case2 fault =>
        constructor
        · rintro ⟨⟩
        · rintro ⟨nodes, ⟨⟩, -⟩
    | case3 head tail induction =>
        simp only [bind_eq_ok, induction]
        constructor
        · rintro ⟨value, taken, others, ⟨nodes, lists, all⟩, ⟨⟩⟩
          exact ⟨head :: nodes, .item lists, .cons taken all⟩
        · rintro ⟨nodes, lists, all⟩
          cases lists with
          | item lists =>
              cases all with
              | cons taken all => exact ⟨_, taken, _, ⟨_, lists, all⟩, rfl⟩
  cases node with
  | array items => simp [Reader.list, listed]
  | _ => simp [Reader.list]

theorem Reader.optional_eq_ok_iff {found : Option α} :
    Reader.optional read node = .ok found ↔
      node = .null ∧ found = none ∨ node ≠ .null ∧ ∃ value, found = some value ∧
        read node = .ok value := by
  cases node with
  | null => simp [Reader.optional, eq_comm (a := found)]
  | _ => simp [Reader.optional, map_eq_ok, eq_comm (a := found), and_comm]

theorem Reader.text_eq_ok_iff {text : String} :
    Reader.text node = .ok text ↔ ∃ quoted, node = .text quoted ∧ quoted.text = .ok text := by
  cases node <;> simp [Reader.text]

/-- No tree with a fault is taken. -/
def Reader.Whole (read : Reader α) : Prop :=
  ∀ node value, read node = .ok value → node.skip = .ok ()

theorem fault_of_markOctets (read : markOctets fault marks = .ok octets) : fault = none := by
  fun_induction markOctets fault marks generalizing octets
  case case1 none => exact none
  case case3 induction | case5 induction | case9 induction =>
    obtain ⟨others, found, -⟩ := bind_eq_ok.mp read
    exact induction found
  all_goals cases read

theorem Quoted.skip_of_text {text : String} (read : quoted.text = .ok text) :
    quoted.skip = .ok () := by
  obtain ⟨octets, found, -⟩ := bind_eq_ok.mp read
  exact Quoted.skip_eq_ok.mpr (fault_of_markOctets found)

theorem Items.Lists.skip {nodes : List Node} (lists : items.Lists nodes)
    (whole : ∀ node ∈ nodes, node.skip = .ok ()) : items.skip = .ok () := by
  induction lists with
  | close => rfl
  | item lists induction =>
      rw [List.forall_mem_cons] at whole
      exact Items.skip_item.mpr ⟨whole.1, induction whole.2⟩

theorem Members.Lists.skip {members : Members} {named : List (String × Node)}
    (lists : members.Lists named) (whole : ∀ member ∈ named, member.2.skip = .ok ()) :
    members.skip = .ok () := by
  induction lists with
  | close => rfl
  | member named lists induction =>
      rw [List.forall_mem_cons] at whole
      exact Members.skip_member.mpr ⟨Quoted.skip_of_text named, whole.1, induction whole.2⟩

theorem Reader.whole_text : Reader.text.Whole := by
  intro node text read
  obtain ⟨quoted, rfl, read⟩ := Reader.text_eq_ok_iff.mp read
  exact Quoted.skip_of_text read

theorem Reader.Whole.optional (whole : read.Whole) : (Reader.optional read).Whole := by
  intro node found taken
  obtain ⟨rfl, -⟩ | ⟨-, value, -, taken⟩ := Reader.optional_eq_ok_iff.mp taken
  · rfl
  · exact whole node value taken

theorem Reader.Whole.list (whole : read.Whole) : (Reader.list read).Whole := by
  intro node values taken
  obtain ⟨items, nodes, rfl, lists, all⟩ := Reader.list_eq_ok_iff.mp taken
  have both := all.imp fun node value taken => And.intro (whole node value taken) taken
  exact lists.skip ((List.forall₂_and_left _ _).mp both).1

theorem Node.IsText.run {value : α} (text : Node.IsText node octets)
    (taken : read node = .ok value) : read.run octets = .ok value := by
  rw [Reader.run, text.read]
  exact bind_eq_ok.mpr ⟨value, taken, rfl⟩

theorem Reader.Whole.run_eq_ok_iff (whole : read.Whole) {value : α} :
    read.run octets = .ok value ↔ ∃ node, Node.IsText node octets ∧ read node = .ok value := by
  constructor
  · intro ran
    obtain ⟨held, taken, ends⟩ := bind_eq_ok.mp ran
    rcases found : Document.read octets with ⟨root, trailing⟩
    rw [found] at taken ends
    cases trailing with
    | true => cases ends
    | false =>
        cases ends
        exact ⟨root, isText_of_read found (whole root value taken), taken⟩
  · rintro ⟨node, text, taken⟩
    exact text.run taken

end KeyCustody.Json
