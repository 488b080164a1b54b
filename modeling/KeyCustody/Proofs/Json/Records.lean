import KeyCustody.Proofs.Json.Readers

namespace KeyCustody.Json

/-! # Records read

A record is read from an object member by member as they come, and from an array field by field.
Either way each field takes the one value that stands under its name, or none; fields that do not
meddle with each other may be filled in any order. -/

variable {α σ : Type} {node : Node} {items : Items} {members : Members} {fields : List (Slot σ)}
  {record blank : σ} {seen : List String} {named : List (String × Node)}

/-- The values that stand under a name, in order. -/
def held (members : List (String × α)) (name : String) : List α :=
  (members.filter fun member => member.1 == name).map Prod.snd

@[simp]
theorem held_nil (name : String) : held ([] : List (String × α)) name = [] := rfl

theorem held_cons_same (name : String) (value : α) (members : List (String × α)) :
    held ((name, value) :: members) name = value :: held members name := by
  simp [held]

theorem held_cons_other {name other : String} (differs : other ≠ name) (value : α)
    (members : List (String × α)) : held ((other, value) :: members) name = held members name := by
  simp [held, differs]

theorem held_eq_nil {name : String} {members : List (String × α)}
    (absent : name ∉ members.map Prod.fst) : held members name = [] := by
  rw [held, List.map_eq_nil_iff, List.filter_eq_nil_iff]
  intro member isMember same
  exact absent (List.mem_map.mpr ⟨member, isMember, by simpa using same⟩)

theorem held_of_apart {name : String} {value : α} {before after : List (String × α)}
    (apart : ∀ member ∈ before ++ after, member.1 ≠ name) :
    held (before ++ (name, value) :: after) name = [value] := by
  have others (members : List (String × α)) (within : members ⊆ before ++ after) :
      (members.filter fun member => member.1 == name) = [] :=
    List.filter_eq_nil_iff.mpr fun member isMember => by simp [apart member (within isMember)]
  simp [held, others before (List.subset_append_left _ _),
    others after (List.subset_append_right _ _)]

/-- What a tree gives a record with members of these names. An object may hold other members, if
they are JSON; an array gives a value to each name in turn. -/
inductive Presents (names : List String) : Node → (String → List Node) → Prop where
  | object {members : Members} {named : List (String × Node)} (lists : members.Lists named)
      (others : ∀ member ∈ named, member.1 ∉ names → member.2.skip = .ok ()) :
      Presents names (.object members) (held named)
  | array {items : Items} {nodes : List Node} (lists : items.Lists nodes)
      (fits : nodes.length ≤ names.length) :
      Presents names (.array items) (held (names.zip nodes))

namespace Slot

def put (slot : Slot σ) (value : Node) (record : σ) : Option σ := (slot.set value record).toOption

theorem put_eq_some_iff {slot : Slot σ} {value : Node} {before after : σ} :
    slot.put value before = some after ↔ slot.set value before = .ok after := by
  rw [put]
  cases slot.set value before <;> simp [Except.toOption]

/-- A field takes one value, or none unless it is required. -/
def take (slot : Slot σ) : List Node → σ → Option σ
  | [] => if slot.required then fun _ => none else some
  | [value] => slot.put value
  | _ => fun _ => none

/-- Fields of different names that may be filled in either order. -/
structure Independent (one other : Slot σ) : Prop where
  differs : one.name ≠ other.name
  commutes : ∀ value another record, (one.put value record).bind (other.put another) =
    (other.put another record).bind (one.put value)

end Slot

/-- The record in which every field has taken what is given to it. -/
def fillEach (give : Slot σ → σ → Option σ) (fields : List (Slot σ)) (record : σ) : Option σ :=
  fields.foldlM (fun record field => give field record) record

@[simp]
theorem fillEach_nil (give : Slot σ → σ → Option σ) (record : σ) :
    fillEach give [] record = some record := rfl

@[simp]
theorem fillEach_cons (give : Slot σ → σ → Option σ) (field : Slot σ) (fields : List (Slot σ))
    (record : σ) :
    fillEach give (field :: fields) record = (give field record).bind (fillEach give fields) := rfl

theorem bind_fillEach_cons (give : Slot σ → σ → Option σ) (field : Slot σ)
    (fields : List (Slot σ)) (record : Option σ) :
    record.bind (fillEach give (field :: fields)) =
      (record.bind (give field)).bind (fillEach give fields) := by
  cases record <;> rfl

theorem fillEach_congr {give other : Slot σ → σ → Option σ}
    (same : ∀ field ∈ fields, give field = other field) (record : σ) :
    fillEach give fields record = fillEach other fields record := by
  induction fields generalizing record with
  | nil => rfl
  | cons field fields induction =>
      rw [List.forall_mem_cons] at same
      rw [fillEach_cons, fillEach_cons, same.1]
      exact Option.bind_congr fun record _ => induction same.2 record

namespace Slot

/-- A field on an object of which the members `seen` are in the record already. -/
def takeUnseen (seen : List String) (named : List (String × Node)) (field : Slot σ) :
    σ → Option σ :=
  if field.name ∈ seen then if held named field.name = [] then some else fun _ => none
  else field.take (held named field.name)

theorem takeUnseen_other (seen : List String) (named : List (String × Node))
    {field other : Slot σ} (differs : other.name ≠ field.name) (value : Node) :
    field.takeUnseen seen ((other.name, value) :: named) =
      field.takeUnseen (other.name :: seen) named := by
  simp [takeUnseen, held_cons_other differs, differs.symm]

theorem Independent.symm {one other : Slot σ} (independent : Independent one other) :
    Independent other one :=
  ⟨independent.differs.symm, fun value another record =>
    (independent.commutes another value record).symm⟩

theorem Independent.take {one other : Slot σ} (independent : Independent one other) (value : Node)
    (values : List Node) (record : σ) :
    (one.put value record).bind (other.take values) =
      (other.take values record).bind (one.put value) := by
  match values with
  | [] => by_cases required : other.required <;> simp [Slot.take, required]
  | [another] => exact independent.commutes value another record
  | _ :: _ :: _ => simp [Slot.take]

theorem Independent.takeUnseen {one other : Slot σ} (independent : Independent one other)
    (value : Node) (record : σ) :
    (one.put value record).bind (other.takeUnseen seen named) =
      (other.takeUnseen seen named record).bind (one.put value) := by
  by_cases known : other.name ∈ seen
  · by_cases absent : held named other.name = [] <;> simp [Slot.takeUnseen, known, absent]
  · simp [Slot.takeUnseen, known, independent.take value _ record]

end Slot

/-- Filling a field before the others is filling it in its place. -/
theorem fillEach_takeUnseen {field : Slot σ} (independent : fields.Pairwise Slot.Independent)
    (member : field ∈ fields) (unseen : field.name ∉ seen) (value : Node) (record : σ) :
    fillEach (Slot.takeUnseen seen ((field.name, value) :: named)) fields record =
      (field.put value record).bind
        (fillEach (Slot.takeUnseen (field.name :: seen) named) fields) := by
  induction fields generalizing record with
  | nil => cases member
  | cons first fields induction =>
      rw [List.pairwise_cons] at independent
      obtain ⟨apart, independent⟩ := independent
      cases member with
      | head =>
          have others := fillEach_congr (fun other later =>
            Slot.takeUnseen_other seen named (apart other later).differs value)
          cases absent : held named field.name with
          | nil =>
              simp [bind_fillEach_cons, Slot.takeUnseen, Slot.take, unseen, held_cons_same, absent,
                others]
          | cons =>
              simp [bind_fillEach_cons, Slot.takeUnseen, Slot.take, unseen, held_cons_same, absent]
      | tail _ member =>
          have differs : field.name ≠ first.name := (apart field member).differs.symm
          rw [fillEach_cons, bind_fillEach_cons, Slot.takeUnseen_other seen named differs,
            (apart field member).symm.takeUnseen value record, Option.bind_assoc]
          exact Option.bind_congr fun record _ => induction independent member record

theorem fillEach_eq_none {give : Slot σ → σ → Option σ} {field : Slot σ} (member : field ∈ fields)
    (refuses : give field = fun _ => none) (record : σ) : fillEach give fields record = none := by
  induction fields generalizing record with
  | nil => cases member
  | cons first fields induction =>
      cases member with
      | head => rw [fillEach_cons, refuses, Option.bind_none]
      | tail _ member =>
          rw [fillEach_cons, Option.bind_congr fun record _ => induction member record]
          exact Option.bind_fun_none _

/-- At the end of an object, only what is required may be missing no more. -/
theorem fill_close_eq_ok_iff {result : σ} :
    Members.fill fields seen record .close = .ok result ↔
      fillEach (Slot.takeUnseen seen []) fields record = some result := by
  have closed : fillEach (Slot.takeUnseen seen []) fields record =
      if fields.all fun field => !field.required || seen.contains field.name then some record
      else none := by
    induction fields with
    | nil => rfl
    | cons field fields induction =>
        rw [fillEach_cons]
        by_cases known : field.name ∈ seen <;> by_cases required : field.required <;>
          simp [Slot.takeUnseen, Slot.take, known, required, induction]
  rw [Members.fill, closed]
  split_ifs <;> simp

theorem exists_lists_member {name : Quoted} {value : Node} {tail : Members}
    {condition : List (String × Node) → Prop} :
    (∃ named, Members.Lists (.member name value tail) named ∧ condition named) ↔
      ∃ text, name.text = .ok text ∧
        ∃ named, tail.Lists named ∧ condition ((text, value) :: named) := by
  constructor
  · rintro ⟨named, lists, holds⟩
    cases lists with
    | member named lists => exact ⟨_, named, _, lists, holds⟩
  · rintro ⟨text, named, members, lists, holds⟩
    exact ⟨_, .member named lists, holds⟩

theorem fill_eq_ok_iff (independent : fields.Pairwise Slot.Independent) {result : σ} :
    ∀ {members : Members} {seen : List String} {record : σ},
      members.fill fields seen record = .ok result ↔
        ∃ named, members.Lists named ∧
          (∀ member ∈ named, member.1 ∉ fields.map Slot.name → member.2.skip = .ok ()) ∧
          fillEach (Slot.takeUnseen seen named) fields record = some result
  | .close, seen, record => by
      rw [fill_close_eq_ok_iff]
      constructor
      · intro filled
        exact ⟨[], .close, by simp, filled⟩
      · rintro ⟨named, ⟨⟩, -, filled⟩
        exact filled
  | .broken fault, seen, record => by
      constructor
      · rintro ⟨⟩
      · rintro ⟨named, ⟨⟩, -⟩
  | .member name value tail, seen, record => by
      rw [exists_lists_member, Members.fill, bind_eq_ok]
      refine exists_congr fun text => and_congr_right fun named => ?_
      simp only [List.forall_mem_cons]
      split
      · next unknown =>
        have absent : ∀ field ∈ fields, text ≠ field.name := fun field member same => by
          simpa [same] using List.find?_eq_none.mp unknown field member
        have notNamed : text ∉ fields.map Slot.name := by
          simpa [eq_comm] using absent
        have passed (named : List (String × Node)) :
            fillEach (Slot.takeUnseen seen ((text, value) :: named)) fields record =
              fillEach (Slot.takeUnseen seen named) fields record :=
          fillEach_congr (fun field member => by
            simp [Slot.takeUnseen, held_cons_other (absent field member)]) record
        rw [bind_eq_ok]
        simp only [passed, notNamed, not_false_eq_true, true_implies, fill_eq_ok_iff independent]
        constructor
        · rintro ⟨_, skipped, named, lists, others, filled⟩
          exact ⟨named, lists, ⟨skipped, others⟩, filled⟩
        · rintro ⟨named, lists, ⟨skipped, others⟩, filled⟩
          exact ⟨(), skipped, named, lists, others, filled⟩
      · next field known =>
        have member := List.mem_of_find?_eq_some known
        obtain rfl : field.name = text := by simpa using List.find?_some known
        have notOther : ¬ field.name ∉ fields.map Slot.name :=
          not_not.mpr (List.mem_map_of_mem member)
        simp only [notOther, false_implies, true_and, List.contains_iff_mem]
        split_ifs with again
        · have repeated (named : List (String × Node)) :
              fillEach (Slot.takeUnseen seen ((field.name, value) :: named)) fields record = none :=
            fillEach_eq_none member (by simp [Slot.takeUnseen, again, held_cons_same]) record
          simp [repeated]
        · simp only [fillEach_takeUnseen independent member again, bind_eq_ok,
            fill_eq_ok_iff independent, Option.bind_eq_some_iff, Slot.put_eq_some_iff]
          constructor
          · rintro ⟨held, set, named, lists, others, filled⟩
            exact ⟨named, lists, others, held, set, filled⟩
          · rintro ⟨named, lists, others, held, set, filled⟩
            exact ⟨held, set, named, lists, others, filled⟩

theorem record_object_eq_ok_iff (independent : fields.Pairwise Slot.Independent) :
    Reader.record fields blank (.object members) = .ok record ↔
      ∃ named, members.Lists named ∧
        (∀ member ∈ named, member.1 ∉ fields.map Slot.name → member.2.skip = .ok ()) ∧
        fillEach (fun field => field.take (held named field.name)) fields blank = some record := by
  have fresh (named : List (String × Node)) : Slot.takeUnseen [] named =
      fun field : Slot σ => field.take (held named field.name) := by
    funext field
    simp [Slot.takeUnseen]
  simp only [Reader.record, fill_eq_ok_iff independent, fresh]

/-- Values for the fields of a record in order. -/
def Slot.takeInTurn (fields : List (Slot σ)) (nodes : List Node) (record : σ) : Option σ :=
  fillEach (fun field => field.take (held ((fields.map Slot.name).zip nodes) field.name)) fields
    record

theorem takeInTurn_nil :
    Slot.takeInTurn fields [] record =
      if fields.any fun field => field.required then none else some record := by
  simp only [Slot.takeInTurn, List.zip_nil_right, held_nil, Slot.take]
  induction fields with
  | nil => rfl
  | cons field fields induction =>
      rw [fillEach_cons, List.any_cons]
      by_cases required : field.required <;> simp only [required, if_true, Bool.true_or,
        Option.bind_none, Bool.false_or, Bool.false_eq_true, if_false, Option.bind_some, induction]

theorem takeInTurn_cons {field : Slot σ} (distinct : field.name ∉ fields.map Slot.name)
    (head : Node) (nodes : List Node) :
    Slot.takeInTurn (field :: fields) (head :: nodes) record =
      (field.put head record).bind (Slot.takeInTurn fields nodes) := by
  have absent : held ((fields.map Slot.name).zip nodes) field.name = [] :=
    held_eq_nil fun member => by
      obtain ⟨pair, zipped, same⟩ := List.mem_map.mp member
      exact distinct (same ▸ (List.of_mem_zip zipped).1)
  have others (record : σ) :
      fillEach (fun other => other.take
        (held ((field.name, head) :: (fields.map Slot.name).zip nodes) other.name)) fields record =
        Slot.takeInTurn fields nodes record :=
    fillEach_congr (fun other member => by
      rw [held_cons_other fun same => distinct (List.mem_map.mpr ⟨other, member, same.symm⟩)])
      record
  rw [Slot.takeInTurn, List.map_cons, List.zip_cons_cons, fillEach_cons, held_cons_same, absent]
  exact Option.bind_congr fun record _ => others record

theorem items_fill_eq_ok_iff (distinct : (fields.map Slot.name).Nodup) {result : σ} :
    items.fill record fields = .ok result ↔
      ∃ nodes, items.Lists nodes ∧ nodes.length ≤ fields.length ∧
        Slot.takeInTurn fields nodes record = some result := by
  fun_induction Items.fill record fields items with
  | case1 record =>
      constructor
      · rintro ⟨⟩
        exact ⟨[], .close, Nat.le_refl 0, rfl⟩
      · rintro ⟨nodes, ⟨⟩, -, filled⟩
        exact congrArg Except.ok (Option.some.inj filled)
  | case2 record head tail =>
      constructor
      · rintro ⟨⟩
      · rintro ⟨nodes, ⟨⟩, fits, -⟩
        cases fits
  | case3 record field fields required =>
      constructor
      · rintro ⟨⟩
      · rintro ⟨nodes, ⟨⟩, -, filled⟩
        rw [takeInTurn_nil, if_pos required] at filled
        cases filled
  | case4 record field fields required =>
      constructor
      · rintro ⟨⟩
        exact ⟨[], .close, Nat.zero_le _, by rw [takeInTurn_nil, if_neg required]⟩
      · rintro ⟨nodes, ⟨⟩, -, filled⟩
        rw [takeInTurn_nil, if_neg required] at filled
        exact congrArg Except.ok (Option.some.inj filled)
  | case5 record field fields head tail induction =>
      rw [List.map_cons, List.nodup_cons] at distinct
      rw [bind_eq_ok]
      constructor
      · rintro ⟨held, set, filled⟩
        obtain ⟨nodes, lists, fits, taken⟩ := (induction held distinct.2).mp filled
        refine ⟨head :: nodes, .item lists, Nat.succ_le_succ fits, ?_⟩
        rw [takeInTurn_cons distinct.1, Slot.put_eq_some_iff.mpr set]
        exact taken
      · rintro ⟨nodes, lists, fits, taken⟩
        cases lists with
        | @item _ _ nodes lists =>
            rw [takeInTurn_cons distinct.1] at taken
            obtain ⟨held, set, taken⟩ := Option.bind_eq_some_iff.mp taken
            exact ⟨held, Slot.put_eq_some_iff.mp set, (induction held distinct.2).mpr
              ⟨nodes, lists, Nat.le_of_succ_le_succ fits, taken⟩⟩
  | case6 =>
      constructor
      · rintro ⟨⟩
      · rintro ⟨nodes, ⟨⟩, -⟩

theorem record_eq_ok_iff (independent : fields.Pairwise Slot.Independent) :
    Reader.record fields blank node = .ok record ↔
      ∃ values, Presents (fields.map Slot.name) node values ∧
        fillEach (fun field => field.take (values field.name)) fields blank = some record := by
  have distinct : (fields.map Slot.name).Nodup :=
    List.pairwise_map.mpr (independent.imp Slot.Independent.differs)
  cases node with
  | object members =>
      rw [record_object_eq_ok_iff independent]
      constructor
      · rintro ⟨named, lists, others, filled⟩
        exact ⟨_, .object lists others, filled⟩
      · rintro ⟨_, ⟨lists, others⟩, filled⟩
        exact ⟨_, lists, others, filled⟩
  | array items =>
      rw [Reader.record, items_fill_eq_ok_iff distinct]
      constructor
      · rintro ⟨nodes, lists, fits, filled⟩
        exact ⟨_, .array lists (by simpa using fits), filled⟩
      · rintro ⟨_, presents, filled⟩
        cases presents with
        | array lists fits => exact ⟨_, lists, by simpa using fits, filled⟩
  | _ =>
      constructor
      · rintro ⟨⟩
      · rintro ⟨_, ⟨⟩, -⟩

/-- The value of a member that may be missing, or `null`. -/
inductive MayHold (kind : Node → α → Prop) : List Node → Option α → Prop where
  | missing : MayHold kind [] none
  | null : MayHold kind [.null] none
  | given {node : Node} {value : α} (shown : kind node value) : MayHold kind [node] (some value)

section

variable {β : Type} {read : Reader α} {name : String} {put : α → σ → σ} {before after : σ}
  {values : List Node}

theorem independent_of_puts {one other : Slot σ} {readOne : Reader α} {readOther : Reader β}
    {putOne : α → σ → σ} {putOther : β → σ → σ} (differs : one.name ≠ other.name)
    (setOne : ∀ node record, one.set node record = (readOne node).map (putOne · record))
    (setOther : ∀ node record, other.set node record = (readOther node).map (putOther · record))
    (commutes : ∀ value another record,
      putOther another (putOne value record) = putOne value (putOther another record)) :
    Slot.Independent one other := by
  refine ⟨differs, fun node another record => ?_⟩
  have first : one.put node = fun record => (readOne node).toOption.map (putOne · record) := by
    funext record
    rw [Slot.put, setOne]
    cases readOne node <;> rfl
  have second : other.put another =
      fun record => (readOther another).toOption.map (putOther · record) := by
    funext record
    rw [Slot.put, setOther]
    cases readOther another <;> rfl
  rw [first, second]
  cases (readOne node).toOption <;> cases (readOther another).toOption <;> simp [commutes]

@[simp] theorem name_must : (Slot.must name read put).name = name := rfl

@[simp] theorem name_may : (Slot.may name read put).name = name := rfl

theorem take_must_eq_some_iff :
    (Slot.must name read put).take values before = some after ↔
      ∃ node value, values = [node] ∧ read node = .ok value ∧ put value before = after := by
  match values with
  | [] => simp [Slot.take, Slot.must]
  | [node] => simp [Slot.take, Slot.must, Slot.put_eq_some_iff, map_eq_ok]
  | _ :: _ :: _ => simp [Slot.take]

theorem take_may_eq_some_iff :
    (Slot.may name read put).take values before = some after ↔
      values = [] ∧ before = after ∨
        ∃ node value, values = [node] ∧ read node = .ok value ∧ put value before = after := by
  match values with
  | [] => simp [Slot.take, Slot.may]
  | [node] => simp [Slot.take, Slot.may, Slot.put_eq_some_iff, map_eq_ok]
  | _ :: _ :: _ => simp [Slot.take]

/-- A member that takes the place of nothing. -/
theorem take_may_optional_eq_some_iff {put : Option α → σ → σ} {kind : Node → α → Prop}
    (reads : ∀ node value, read node = .ok value ↔ kind node value)
    (refuses : ∀ value, ¬ kind .null value) (unset : put none before = before) :
    (Slot.may name (Reader.optional read) put).take values before = some after ↔
      ∃ found, MayHold kind values found ∧ put found before = after := by
  rw [take_may_eq_some_iff]
  constructor
  · rintro (⟨rfl, rfl⟩ | ⟨node, found, rfl, taken, rfl⟩)
    · exact ⟨none, .missing, unset⟩
    · obtain ⟨rfl, rfl⟩ | ⟨-, value, rfl, shown⟩ := Reader.optional_eq_ok_iff.mp taken
      · exact ⟨none, .null, rfl⟩
      · exact ⟨some value, .given ((reads node value).mp shown), rfl⟩
  · rintro ⟨found, holds, rfl⟩
    cases holds with
    | missing => exact .inl ⟨rfl, unset.symm⟩
    | null => exact .inr ⟨.null, none, rfl, rfl, rfl⟩
    | @given node value shown =>
        refine .inr ⟨node, some value, rfl, Reader.optional_eq_ok_iff.mpr (.inr ⟨?_, ?_⟩), rfl⟩
        · rintro rfl
          exact refuses value shown
        · exact ⟨value, rfl, (reads node value).mpr shown⟩

end

theorem mem_held {name : String} {value : α} {members : List (String × α)} :
    value ∈ held members name ↔ (name, value) ∈ members := by
  simp [held]

theorem Presents.skip {names : List String} {values : String → List Node}
    (presents : Presents names node values)
    (whole : ∀ name ∈ names, ∀ value ∈ values name, value.skip = .ok ()) : node.skip = .ok () := by
  cases presents with
  | object lists others =>
      refine lists.skip fun member isMember => ?_
      by_cases known : member.1 ∈ names
      · exact whole member.1 known member.2 (mem_held.mpr isMember)
      · exact others member isMember known
  | @array items nodes lists fits =>
      refine lists.skip fun value isItem => ?_
      rw [← List.map_snd_zip fits] at isItem
      obtain ⟨⟨name, value⟩, zipped, rfl⟩ := List.mem_map.mp isItem
      exact whole name (List.of_mem_zip zipped).1 value (mem_held.mpr zipped)

/-- An object without a fault gives a record the values under each of its names. -/
theorem Members.Lists.presents (lists : members.Lists named) (whole : members.skip = .ok ())
    (names : List String) : Presents names (.object members) (held named) := by
  refine .object lists ?_
  induction lists with
  | close => simp
  | member reads lists induction =>
      obtain ⟨-, headWhole, tailWhole⟩ := Members.skip_member.mp whole
      exact List.forall_mem_cons.mpr ⟨fun _ => headWhole, induction tailWhole⟩

theorem exists_give_of_fillEach {give : Slot σ → σ → Option σ} {field : Slot σ} {result : σ}
    (filled : fillEach give fields record = some result) (member : field ∈ fields) :
    ∃ before after, give field before = some after := by
  induction fields generalizing record with
  | nil => cases member
  | cons first fields induction =>
      obtain ⟨next, given, filled⟩ := Option.bind_eq_some_iff.mp filled
      cases member with
      | head => exact ⟨record, next, given⟩
      | tail _ member => exact induction filled member

/-- A field that takes no tree with a fault. -/
def Slot.Whole (slot : Slot σ) : Prop :=
  ∀ value before after, slot.set value before = .ok after → value.skip = .ok ()

theorem Reader.Whole.may {read : Reader α} (whole : read.Whole) (name : String) (put : α → σ → σ) :
    (Slot.may name read put).Whole := by
  intro value before after set
  obtain ⟨found, taken, -⟩ := map_eq_ok.mp set
  exact whole value found taken

theorem Reader.Whole.must {read : Reader α} (whole : read.Whole) (name : String)
    (put : α → σ → σ) : (Slot.must name read put).Whole :=
  whole.may name put

theorem Reader.whole_record (independent : fields.Pairwise Slot.Independent)
    (whole : ∀ field ∈ fields, field.Whole) : (Reader.record fields blank).Whole := by
  intro node record read
  obtain ⟨values, presents, filled⟩ := (record_eq_ok_iff independent).mp read
  refine presents.skip fun name known value member => ?_
  obtain ⟨field, isField, rfl⟩ := List.mem_map.mp known
  obtain ⟨before, after, taken⟩ := exists_give_of_fillEach filled isField
  match only : values field.name, taken with
  | [], _ => simp [only] at member
  | [one], taken =>
      obtain rfl : value = one := by simpa [only] using member
      exact whole field isField value before after (Slot.put_eq_some_iff.mp taken)

end KeyCustody.Json
