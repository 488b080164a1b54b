import KeyCustody.Proofs.Toml.Keys
import KeyCustody.Toml.Section
import Mathlib.Data.List.Nodup

namespace KeyCustody.Toml

/-! # Sections by name

A record that is filled from a section holds under each name what the section gives there, and
what it held before where the section gives nothing. One value of another kind is enough to
refuse the section. -/

variable {σ : Type} {name : String} {value : Value} {entries : Entries} {record after : σ}
  {fields : List (Slot σ)} {field : Slot σ}

/-- What a section gives by name. An array gives the names in their order, and a date gives none. -/
def Value.entries? (names : List String) : Value → Option Entries
  | .inline entries => some entries
  | .table _ entries => some entries
  | .dateTime => some []
  | other => other.items?.map names.zip

theorem lookup_cons_of_ne {key : String} (other : key ≠ name) :
    List.lookup key ((name, value) :: entries) = entries.lookup key := by
  rw [List.lookup_cons, beq_false_of_ne other]

theorem fill_cons_of_unknown (unknown : name ∉ fields.map Slot.name) :
    fill fields record ((name, value) :: entries) = fill fields record entries := by
  have missing : fields.find? (fun field => field.name == name) = none := by
    simpa using unknown
  rw [fill, missing]

theorem fill_cons_of_known (distinct : (fields.map Slot.name).Nodup) (known : field ∈ fields) :
    fill fields record ((field.name, value) :: entries) =
      (field.set value record).bind fun next => fill fields next entries := by
  have found : fields.find? (fun other => other.name == field.name) = some field := by
    cases first : fields.find? fun other => other.name == field.name with
    | none => simpa using List.find?_eq_none.mp first field known
    | some other =>
        have same : other.name = field.name := by simpa using List.find?_some first
        rw [List.inj_on_of_nodup_map distinct (List.mem_of_find?_eq_some first) known same]
  rw [fill, found]
  rfl

/-- Values in order are values by name. -/
theorem fillInOrder_eq_fill (before : List (Slot σ))
    (distinct : ((before ++ fields).map Slot.name).Nodup) (record : σ) (values : List Value) :
    fillInOrder record fields values =
      fill (before ++ fields) record ((fields.map Slot.name).zip values) := by
  -- The fields before have had their values. A name that is left is none of theirs.
  induction fields generalizing before record values with
  | nil => rfl
  | cons field fields induction =>
      cases values with
      | nil => rfl
      | cons value values =>
          rw [fillInOrder, List.map_cons, List.zip_cons_cons,
            fill_cons_of_known distinct (by simp)]
          refine bind_congr fun next => ?_
          simpa using induction (before ++ [field]) (by simpa using distinct) next values

theorem section?_eq (distinct : (fields.map Slot.name).Nodup) :
    value.section? fields record =
      (value.entries? (fields.map Slot.name)).bind (fill fields record) := by
  have inOrder (values : List Value) := fillInOrder_eq_fill [] distinct record values
  cases value with
  | array items => exact inOrder items
  | tables entries => exact inOrder _
  | text | integer | real | boolean | dateTime | inline | table => rfl

/-- Items in order have the names that there are, each once. -/
theorem wellKeyed_zip {names : List String} {items : List Value} (distinct : names.Nodup)
    (keyed : ∀ item ∈ items, item.WellKeyed) : Entries.WellKeyed (names.zip items) where
  keys := by
    clear keyed
    induction names generalizing items with
    | nil => exact List.nodup_nil
    | cons name names induction =>
        cases items with
        | nil => exact List.nodup_nil
        | cons item items =>
            obtain ⟨fresh, distinct⟩ := List.nodup_cons.mp distinct
            refine List.nodup_cons.mpr ⟨fun listed => ?_, induction distinct⟩
            obtain ⟨⟨other, held⟩, listed, same⟩ := List.mem_map.mp listed
            cases same
            exact fresh (List.of_mem_zip listed).1
  all entry listed := keyed entry.2 (List.of_mem_zip listed).2

theorem Value.WellKeyed.entries? {names : List String} (keyed : value.WellKeyed)
    (distinct : names.Nodup) (gives : value.entries? names = some entries) :
    entries.WellKeyed := by
  cases keyed with
  | inline keys all | table origin keys all =>
      cases gives
      exact ⟨keys, all⟩
  | dateTime =>
      cases gives
      exact .nil
  | array all =>
      cases gives
      exact wellKeyed_zip distinct all
  | tables opened keys all =>
      cases gives
      refine wellKeyed_zip distinct fun item listed => ?_
      simp only [List.mem_map, List.mem_reverse] at listed
      obtain ⟨entries, listed, same⟩ := listed
      rw [← same]
      exact .table .header (keys entries listed) (all entries listed)
  | text | integer | real | boolean => cases gives

/-- What a field may hold. -/
inductive Kind where
  | text
  | natural
  | texts

namespace Kind

variable {kind : Kind}

def Content : Kind → Type
  | .text => String
  | .natural => Nat
  | .texts => List String

def write : (kind : Kind) → kind.Content → Value
  | .text, (found : String) => .text found
  | .natural, (found : Nat) => .integer found
  | .texts, (found : List String) => .array (found.map .text)

def read : (kind : Kind) → Value → Option kind.Content
  | .text => Value.text?
  | .natural => Value.natural?
  | .texts => Value.texts?

def Admits (kind : Kind) (value : Value) : Prop := ∃ content, value = kind.write content

end Kind

theorem text?_eq_some_iff {text : String} : value.text? = some text ↔ value = .text text := by
  cases value <;> simp [Value.text?]

theorem natural?_eq_some_iff {number : Nat} :
    value.natural? = some number ↔ value = .integer number := by
  cases value <;> simp [Value.natural?]
  omega

theorem mapM_text?_eq_some_iff {items : List Value} {texts : List String} :
    items.mapM Value.text? = some texts ↔ items = texts.map .text := by
  induction items generalizing texts with
  | nil => cases texts <;> simp
  | cons item items induction =>
      cases texts <;> simp [List.mapM_cons, Option.bind_eq_some_iff, text?_eq_some_iff, induction]

theorem texts?_eq_some_iff (keyed : value.WellKeyed) {texts : List String} :
    value.texts? = some texts ↔ value = .array (texts.map .text) := by
  cases keyed with
  | array all => simp [Value.texts?, Value.items?, mapM_text?_eq_some_iff]
  | tables opened keys all =>
      obtain ⟨entries, listed⟩ := List.exists_mem_of_ne_nil _ opened
      simp only [Value.texts?, Value.items?, Option.bind_eq_bind, Option.bind_some,
        mapM_text?_eq_some_iff, reduceCtorEq, iff_false]
      intro same
      have table : Value.table .header entries ∈ texts.map Value.text := by
        rw [← same]
        simpa using listed
      simp at table
  | text | integer | real | boolean | dateTime | inline | table => simp [Value.texts?, Value.items?]

theorem Kind.read_eq_some_iff {kind : Kind} (keyed : value.WellKeyed) {content : kind.Content} :
    kind.read value = some content ↔ value = kind.write content := by
  cases kind with
  | text => exact text?_eq_some_iff
  | natural => exact natural?_eq_some_iff
  | texts => exact texts?_eq_some_iff keyed

/-- A place of a record, and what is held there. -/
structure Column (σ : Type) where
  name : String
  kind : Kind
  held : σ → Option Value

/-- The field puts into the column of its name what it takes, and takes the values of its kind. -/
structure Fills (field : Slot σ) (column : Column σ) : Prop where
  named : field.name = column.name
  takes : ∀ value record, value.WellKeyed →
    ((∃ after, field.set value record = some after) ↔ column.kind.Admits value)
  shows : ∀ value record after, value.WellKeyed → field.set value record = some after →
    column.held after = some value

/-- The field leaves the column as it is. -/
def Spares (field : Slot σ) (column : Column σ) : Prop :=
  ∀ value record after, field.set value record = some after →
    column.held after = column.held record

/-- Each column of a record is filled by one of its fields and spared by the others. -/
structure Lays (fields : List (Slot σ)) (columns : List (Column σ)) : Prop where
  distinct : (columns.map Column.name).Nodup
  fills : List.Forall₂ Fills fields columns
  spares : ∀ field ∈ fields, ∀ column ∈ columns, field.name ≠ column.name → Spares field column

section

variable {kind : Kind} {held : σ → Option Value}

theorem set_of_eq_some_iff {α : Type} {read : Value → Option α} {put : α → σ → σ} :
    (Slot.of name read put).set value record = some after ↔
      ∃ found, read value = some found ∧ put found record = after := Option.map_eq_some_iff

theorem fills_of (kind : Kind) {put : kind.Content → σ → σ}
    (shows : ∀ content record, held (put content record) = some (kind.write content)) :
    Fills (.of name kind.read put) ⟨name, kind, held⟩ where
  named := rfl
  takes value record keyed := by
    simp only [set_of_eq_some_iff, kind.read_eq_some_iff keyed, Kind.Admits]
    exact ⟨fun ⟨_, content, same, _⟩ => ⟨content, same⟩, fun ⟨content, same⟩ =>
      ⟨_, content, same, rfl⟩⟩
  shows value record after keyed set := by
    obtain ⟨content, read, same⟩ := set_of_eq_some_iff.mp set
    rw [← same, (kind.read_eq_some_iff keyed).mp read]
    exact shows content record

theorem spares_of {α : Type} {other : String} {read : Value → Option α} {put : α → σ → σ}
    (leaves : ∀ content record, held (put content record) = held record) :
    Spares (.of name read put) ⟨other, kind, held⟩ := by
  intro value record after set
  obtain ⟨content, -, same⟩ := set_of_eq_some_iff.mp set
  rw [← same]
  exact leaves content record

end

namespace Lays

variable {columns : List (Column σ)} {column : Column σ}

theorem names (lays : Lays fields columns) : fields.map Slot.name = columns.map Column.name := by
  rw [← List.forall₂_eq_eq_eq, List.forall₂_map_left_iff, List.forall₂_map_right_iff]
  exact lays.fills.imp fun _ _ fills => fills.named

theorem exists_filled (lays : Lays fields columns) (known : field ∈ fields) :
    ∃ column ∈ columns, Fills field column := by
  have fills := lays.fills
  clear lays
  induction fills with
  | nil => cases known
  | cons fills _ rest =>
      obtain rfl | later := List.mem_cons.mp known
      · exact ⟨_, List.mem_cons_self, fills⟩
      · obtain ⟨column, listed, fills⟩ := rest later
        exact ⟨column, List.mem_cons_of_mem _ listed, fills⟩

theorem fills_of_name (lays : Lays fields columns) (known : field ∈ fields)
    (listed : column ∈ columns) (own : field.name = column.name) : Fills field column := by
  obtain ⟨other, otherListed, fills⟩ := lays.exists_filled known
  have same : other.name = column.name := fills.named.symm.trans own
  rwa [List.inj_on_of_nodup_map lays.distinct otherListed listed same] at fills

theorem distinct_fields (lays : Lays fields columns) : (fields.map Slot.name).Nodup :=
  lays.names ▸ lays.distinct

/-- An entry is for a field, or for none and passed over. -/
theorem fill_cons (lays : Lays fields columns) (record : σ) (name : String) (value : Value)
    (entries : Entries) :
    ((∀ column ∈ columns, column.name ≠ name) ∧
      fill fields record ((name, value) :: entries) = fill fields record entries) ∨
    ∃ field ∈ fields, field.name = name ∧ fill fields record ((name, value) :: entries) =
      (field.set value record).bind fun next => fill fields next entries := by
  by_cases known : name ∈ fields.map Slot.name
  · obtain ⟨field, listed, same⟩ := List.mem_map.mp known
    subst same
    exact .inr ⟨field, listed, rfl, fill_cons_of_known lays.distinct_fields listed⟩
  · have unknown : name ∉ columns.map Column.name := lays.names ▸ known
    exact .inl ⟨fun column listed same => unknown (same ▸ List.mem_map_of_mem listed),
      fill_cons_of_unknown known⟩

/-- What is given is held, and nothing else changes. -/
theorem held_fill (lays : Lays fields columns) (keyed : entries.WellKeyed)
    (filled : fill fields record entries = some after) (listed : column ∈ columns) :
    column.held after = (entries.lookup column.name).or (column.held record) := by
  induction entries generalizing record with
  | nil =>
      cases filled
      rfl
  | cons entry entries induction =>
      obtain ⟨name, value⟩ := entry
      obtain ⟨others, same⟩ | ⟨field, known, named, same⟩ :=
        lays.fill_cons record name value entries
      · rw [lookup_cons_of_ne (others column listed)]
        exact induction keyed.tail (same ▸ filled)
      · rw [same] at filled
        obtain ⟨next, set, filled⟩ := Option.bind_eq_some_iff.mp filled
        rw [induction keyed.tail filled]
        have valueKeyed : value.WellKeyed := keyed.all (name, value) List.mem_cons_self
        -- The keys are distinct, so no later entry is for the column of this one.
        by_cases own : field.name = column.name
        · have shown := (lays.fills_of_name known listed own).shows _ _ _ valueKeyed set
          rw [← own, named, keyed.lookup_tail, shown, List.lookup_cons_self]
          rfl
        · have spared := lays.spares field known column listed own _ _ _ set
          have other : column.name ≠ name := fun same => own (named.trans same.symm)
          rw [lookup_cons_of_ne other, spared]

end Lays

/-- Each column that is given is given a value of its kind. -/
def Admitted (columns : List (Column σ)) (entries : Entries) : Prop :=
  ∀ column ∈ columns, ∀ value, entries.lookup column.name = some value → column.kind.Admits value

namespace Lays

variable {columns : List (Column σ)} {column : Column σ}

theorem admitted_cons_iff (lays : Lays fields columns) (listed : column ∈ columns)
    (keyed : Entries.WellKeyed ((column.name, value) :: entries)) :
    Admitted columns ((column.name, value) :: entries) ↔
      column.kind.Admits value ∧ Admitted columns entries := by
  constructor
  · intro admitted
    refine ⟨admitted column listed value List.lookup_cons_self, fun other otherListed found later => ?_⟩
    have differs : other.name ≠ column.name := fun same => by
      simp [same, keyed.lookup_tail] at later
    exact admitted other otherListed found ((lookup_cons_of_ne differs).trans later)
  · intro ⟨admits, admitted⟩ other otherListed found given
    by_cases same : other.name = column.name
    · rw [List.inj_on_of_nodup_map lays.distinct otherListed listed same] at given ⊢
      rw [List.lookup_cons_self, Option.some.injEq] at given
      rwa [← given]
    · exact admitted other otherListed found ((lookup_cons_of_ne same).symm.trans given)

/-- Entries are refused only for a value of another kind than its column. -/
theorem fill_iff (lays : Lays fields columns) (keyed : entries.WellKeyed) (record : σ) :
    (∃ after, fill fields record entries = some after) ↔ Admitted columns entries := by
  induction entries generalizing record with
  | nil => simp [fill, Admitted]
  | cons entry entries induction =>
      obtain ⟨name, value⟩ := entry
      obtain ⟨others, same⟩ | ⟨field, known, named, same⟩ :=
        lays.fill_cons record name value entries
      · rw [same, induction keyed.tail]
        refine forall₂_congr fun column listed => ?_
        rw [lookup_cons_of_ne (others column listed)]
      · obtain ⟨column, listed, fills⟩ := lays.exists_filled known
        obtain rfl : column.name = name := fills.named.symm.trans named
        have valueKeyed : value.WellKeyed := keyed.all (column.name, value) List.mem_cons_self
        rw [same, lays.admitted_cons_iff listed keyed, ← fills.takes value record valueKeyed]
        simp only [Option.bind_eq_some_iff]
        constructor
        · intro ⟨after, next, set, filled⟩
          exact ⟨⟨next, set⟩, (induction keyed.tail next).mp ⟨after, filled⟩⟩
        · intro ⟨⟨next, set⟩, admitted⟩
          obtain ⟨after, filled⟩ := (induction keyed.tail next).mpr admitted
          exact ⟨after, next, set, filled⟩

end Lays

/-- Reads a section into a blank record. Where it is missing, what is held stays. -/
def part? (fields : List (Slot σ)) (blank held : σ) : Option Value → Option σ
  | none => some held
  | some value => value.section? fields blank

/-- What a section that may be missing gives for a column. -/
def given? (columns : List (Column σ)) (part : Option Value) (column : Column σ) : Option Value := do
  let entries ← (← part).entries? (columns.map Column.name)
  entries.lookup column.name

/-- A section, if there is one, that gives its columns nothing but values of their kinds. -/
structure Typed (columns : List (Column σ)) (part : Option Value) : Prop where
  named : ∀ value ∈ part, (value.entries? (columns.map Column.name)).isSome
  admits : ∀ column ∈ columns, ∀ value ∈ given? columns part column, column.kind.Admits value

namespace Lays

variable {columns : List (Column σ)} {column : Column σ} {part : Option Value}

theorem part_iff (lays : Lays fields columns) (keyed : ∀ value ∈ part, value.WellKeyed)
    (record : σ) : (∃ after, part? fields record record part = some after) ↔ Typed columns part := by
  cases part with
  | none => exact ⟨fun _ => ⟨by simp, by simp [given?]⟩, fun _ => ⟨record, rfl⟩⟩
  | some value =>
      rw [part?, section?_eq lays.distinct_fields, lays.names]
      cases gives : value.entries? (columns.map Column.name) with
      | none =>
          refine ⟨fun ⟨_, filled⟩ => (nomatch filled), fun typed => ?_⟩
          simpa [gives] using typed.named value rfl
      | some entries =>
          have entriesKeyed := (keyed value rfl).entries? lays.distinct gives
          rw [Option.bind_some, lays.fill_iff entriesKeyed]
          have same (column : Column σ) :
              given? columns (some value) column = entries.lookup column.name := by
            simp [given?, gives]
          constructor
          · intro admits
            refine ⟨by simp [gives], fun column listed found given => ?_⟩
            exact admits column listed found ((same column).symm.trans given)
          · intro typed column listed found lookup
            exact typed.admits column listed found ((same column).trans lookup)

theorem held_part (lays : Lays fields columns) (keyed : ∀ value ∈ part, value.WellKeyed)
    (read : part? fields record record part = some after) (listed : column ∈ columns) :
    column.held after = (given? columns part column).or (column.held record) := by
  cases part with
  | none =>
      cases read
      rfl
  | some value =>
      rw [part?, section?_eq lays.distinct_fields, lays.names] at read
      obtain ⟨entries, gives, filled⟩ := Option.bind_eq_some_iff.mp read
      have entriesKeyed := (keyed value rfl).entries? lays.distinct gives
      rw [lays.held_fill entriesKeyed filled listed]
      simp [given?, gives]

end Lays

end KeyCustody.Toml
