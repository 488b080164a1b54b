import KeyCustody.Toml.Document
import Mathlib.Data.List.Basic

namespace KeyCustody.Toml

/-! # Keys of a document

However the pieces of a table are spread over a document, no table of it comes to hold a key
twice. -/

variable {name key : String} {value : Value} {entries after : Entries}

/-- No table of the value has a key twice, and tables under headers in double brackets are one at
least. -/
inductive Value.WellKeyed : Value → Prop where
  | text (value : String) : WellKeyed (.text value)
  | integer (value : Int) : WellKeyed (.integer value)
  | real : WellKeyed .real
  | boolean (value : Bool) : WellKeyed (.boolean value)
  | dateTime : WellKeyed .dateTime
  | array {items : List Value} (all : ∀ item ∈ items, WellKeyed item) : WellKeyed (.array items)
  | inline {entries : List (String × Value)} (keys : (entries.map Prod.fst).Nodup)
      (all : ∀ entry ∈ entries, WellKeyed entry.2) : WellKeyed (.inline entries)
  | table (origin : Origin) {entries : List (String × Value)} (keys : (entries.map Prod.fst).Nodup)
      (all : ∀ entry ∈ entries, WellKeyed entry.2) : WellKeyed (.table origin entries)
  | tables {tables : List (List (String × Value))} (opened : tables ≠ [])
      (keys : ∀ entries ∈ tables, (entries.map Prod.fst).Nodup)
      (all : ∀ entries ∈ tables, ∀ entry ∈ entries, WellKeyed entry.2) :
      WellKeyed (.tables tables)

structure Entries.WellKeyed (entries : Entries) : Prop where
  keys : (entries.map Prod.fst).Nodup
  all : ∀ entry ∈ entries, entry.2.WellKeyed

theorem wellKeyed_table_iff {origin : Origin} :
    (Value.table origin entries).WellKeyed ↔ entries.WellKeyed := by
  constructor
  · intro keyed
    cases keyed with
    | table origin keys all => exact ⟨keys, all⟩
  · intro keyed
    exact .table origin keyed.keys keyed.all

theorem wellKeyed_inline_iff : (Value.inline entries).WellKeyed ↔ entries.WellKeyed := by
  constructor
  · intro keyed
    cases keyed with
    | inline keys all => exact ⟨keys, all⟩
  · intro keyed
    exact .inline keyed.keys keyed.all

theorem wellKeyed_tables_iff {tables : List Entries} :
    (Value.tables tables).WellKeyed ↔ tables ≠ [] ∧ ∀ entries ∈ tables, entries.WellKeyed := by
  constructor
  · intro keyed
    cases keyed with
    | tables opened keys all =>
        exact ⟨opened, fun entries listed => ⟨keys entries listed, all entries listed⟩⟩
  · intro ⟨opened, keyed⟩
    exact .tables opened (fun entries listed => (keyed entries listed).keys)
      fun entries listed => (keyed entries listed).all

theorem map_fst_replaceEntry : (replaceEntry name value entries).map Prod.fst =
    entries.map Prod.fst := by
  induction entries with
  | nil => rfl
  | cons head rest induction =>
      rw [replaceEntry]
      split
      · rfl
      · simp [induction]

theorem snd_of_mem_replaceEntry {entry : String × Value}
    (listed : entry ∈ replaceEntry name value entries) : entry.2 = value ∨ entry ∈ entries := by
  induction entries with
  | nil => exact .inr listed
  | cons head rest induction =>
      rw [replaceEntry] at listed
      split at listed
      · obtain rfl | later := List.mem_cons.mp listed
        · exact .inl rfl
        · exact .inr (List.mem_cons_of_mem _ later)
      · obtain rfl | later := List.mem_cons.mp listed
        · exact .inr List.mem_cons_self
        · exact (induction later).imp_right (List.mem_cons_of_mem _)

namespace Entries.WellKeyed

theorem nil : Entries.WellKeyed [] := ⟨List.nodup_nil, by simp⟩

theorem tail (keyed : Entries.WellKeyed ((name, value) :: entries)) : entries.WellKeyed where
  keys := (List.nodup_cons.mp keyed.keys).2
  all := (List.forall_mem_cons.mp keyed.all).2

theorem lookup_tail (keyed : Entries.WellKeyed ((name, value) :: entries)) :
    entries.lookup name = none := by
  have fresh : name ∉ entries.map Prod.fst := (List.nodup_cons.mp keyed.keys).1
  rw [List.lookup_eq_none_iff]
  intro entry listed
  have held : entry.1 ∈ entries.map Prod.fst := List.mem_map_of_mem listed
  have differs : name ≠ entry.1 := fun same => fresh (same ▸ held)
  simpa using differs

theorem of_lookup (keyed : entries.WellKeyed) (found : entries.lookup name = some value) :
    value.WellKeyed := by
  obtain ⟨before, after, same, -⟩ := List.lookup_eq_some_iff.mp found
  exact keyed.all (name, value) (by simp [same])

theorem append (keyed : entries.WellKeyed) (missing : entries.lookup name = none)
    (valueKeyed : value.WellKeyed) : Entries.WellKeyed (entries ++ [(name, value)]) where
  keys := by
    have fresh : ∀ entry ∈ entries, ¬ entry.1 = name := fun entry listed same => by
      simpa [same] using List.lookup_eq_none_iff.mp missing entry listed
    simpa [List.nodup_append, keyed.keys] using fun other held listed =>
      fresh (other, held) listed
  all := by
    simpa [or_imp, forall_and, valueKeyed] using fun other held => keyed.all (other, held)

theorem replaceEntry (keyed : entries.WellKeyed) (valueKeyed : value.WellKeyed) :
    Entries.WellKeyed (replaceEntry name value entries) where
  keys := by simpa only [map_fst_replaceEntry] using keyed.keys
  all entry listed := by
    obtain same | other := snd_of_mem_replaceEntry listed
    · rwa [same]
    · exact keyed.all entry other

variable {origin : Origin} {inner newest next : Entries} {older : List Entries}

theorem inner_of_lookup (keyed : entries.WellKeyed)
    (found : entries.lookup name = some (.table origin inner)) : inner.WellKeyed :=
  wellKeyed_table_iff.mp (keyed.of_lookup found)

theorem newest_of_lookup (keyed : entries.WellKeyed)
    (found : entries.lookup name = some (.tables (newest :: older))) : newest.WellKeyed :=
  (wellKeyed_tables_iff.mp (keyed.of_lookup found)).2 newest List.mem_cons_self

theorem append_table (keyed : entries.WellKeyed) (missing : entries.lookup name = none)
    (innerKeyed : inner.WellKeyed) :
    Entries.WellKeyed (entries ++ [(name, .table origin inner)]) :=
  keyed.append missing (wellKeyed_table_iff.mpr innerKeyed)

theorem replace_table (keyed : entries.WellKeyed) (innerKeyed : inner.WellKeyed) :
    Entries.WellKeyed (Toml.replaceEntry name (.table origin inner) entries) :=
  keyed.replaceEntry (wellKeyed_table_iff.mpr innerKeyed)

theorem replace_newest (keyed : entries.WellKeyed)
    (found : entries.lookup name = some (.tables (newest :: older))) (nextKeyed : next.WellKeyed) :
    Entries.WellKeyed (Toml.replaceEntry name (.tables (next :: older)) entries) := by
  obtain ⟨-, held⟩ := wellKeyed_tables_iff.mp (keyed.of_lookup found)
  refine keyed.replaceEntry (wellKeyed_tables_iff.mpr ⟨by simp, ?_⟩)
  simpa [nextKeyed] using (List.forall_mem_cons.mp held).2

end Entries.WellKeyed

open Entries.WellKeyed (nil)

theorem wellKeyed_of_alterAt {change : Entries → Option Entries} {path : List String}
    (changes : ∀ before after, before.WellKeyed → change before = some after → after.WellKeyed)
    (keyed : entries.WellKeyed) (altered : alterAt change path entries = some after) :
    after.WellKeyed := by
  induction path generalizing entries after with
  | nil => exact changes entries after keyed altered
  | cons key rest induction =>
      rw [alterAt] at altered
      split at altered
      · rename_i missing
        obtain ⟨inner, innerAltered, same⟩ := Option.bind_eq_some_iff.mp altered
        cases same
        exact keyed.append_table missing (induction nil innerAltered)
      · rename_i origin before found
        obtain ⟨inner, innerAltered, same⟩ := Option.bind_eq_some_iff.mp altered
        cases same
        exact keyed.replace_table (induction (keyed.inner_of_lookup found) innerAltered)
      · rename_i newest older found
        obtain ⟨next, nextAltered, same⟩ := Option.bind_eq_some_iff.mp altered
        cases same
        exact keyed.replace_newest found (induction (keyed.newest_of_lookup found) nextAltered)
      · cases altered

theorem wellKeyed_of_addDotted {path : List String} (valueKeyed : value.WellKeyed)
    (keyed : entries.WellKeyed) (added : addDotted path value entries = some after) :
    after.WellKeyed := by
  -- The cases that end in a table are a missing one, one made by dotted keys, one in the path of a
  -- header, and the newest under headers in double brackets.
  fun_induction addDotted path value entries generalizing after with
  | case2 key value entries missing =>
      cases added
      exact keyed.append missing valueKeyed
  | case4 key rest value entries more missing induction =>
      obtain ⟨inner, innerAdded, same⟩ := Option.bind_eq_some_iff.mp added
      cases same
      exact keyed.append_table missing (induction valueKeyed nil innerAdded)
  | case5 key rest value entries more before found induction =>
      obtain ⟨inner, innerAdded, same⟩ := Option.bind_eq_some_iff.mp added
      cases same
      have innerKeyed := induction valueKeyed (keyed.inner_of_lookup found) innerAdded
      exact keyed.replace_table innerKeyed
  | case7 key rest value entries more last before found =>
      rename_i induction
      obtain ⟨inner, innerAdded, same⟩ := Option.bind_eq_some_iff.mp added
      cases same
      have innerKeyed := induction valueKeyed (keyed.inner_of_lookup found) innerAdded
      exact keyed.replace_table innerKeyed
  | case9 key rest value entries more last newest older found =>
      rename_i induction
      obtain ⟨next, nextAdded, same⟩ := Option.bind_eq_some_iff.mp added
      cases same
      have nextKeyed := induction valueKeyed (keyed.newest_of_lookup found) nextAdded
      exact keyed.replace_newest found nextKeyed
  | case1 | case3 | case6 | case8 | case10 => cases added

theorem wellKeyed_of_openTable (keyed : entries.WellKeyed)
    (opened : openTable key entries = some after) : after.WellKeyed := by
  rw [openTable] at opened
  split at opened
  · rename_i missing
    cases opened
    exact keyed.append_table missing nil
  · rename_i inner found
    cases opened
    exact keyed.replace_table (keyed.inner_of_lookup found)
  · cases opened

theorem wellKeyed_of_openNext (keyed : entries.WellKeyed)
    (opened : openNext key entries = some after) : after.WellKeyed := by
  rw [openNext] at opened
  split at opened
  · rename_i missing
    cases opened
    exact keyed.append missing (wellKeyed_tables_iff.mpr (by simp [nil]))
  · rename_i older found
    cases opened
    obtain ⟨-, held⟩ := wellKeyed_tables_iff.mp (keyed.of_lookup found)
    exact keyed.replaceEntry (wellKeyed_tables_iff.mpr ⟨by simp, by simpa [nil] using held⟩)
  · cases opened

section

variable {α β : Type} {condition : α → Prop} {goal : β → Prop} {first : Option α}

/-- What is read meets the condition, if anything is. -/
def Yields (condition : α → Prop) (result : Option (α × List Char)) : Prop :=
  ∀ found ∈ result, condition found.1

theorem yields_none : Yields condition none := fun _ found => nomatch found

theorem yields_some {found : α} {rest : List Char} (holds : condition found) :
    Yields condition (some (found, rest)) := by
  intro other same
  cases same
  exact holds

theorem yields_bind {next : α → Option (β × List Char)}
    (yields : ∀ value, first = some value → Yields goal (next value)) :
    Yields goal (first >>= next) := by
  intro found read
  obtain ⟨value, first, read⟩ := Option.bind_eq_some_iff.mp read
  exact yields value first found read

theorem yields_map {f : α → β × List Char}
    (holds : ∀ value, first = some value → goal (f value).1) : Yields goal (first.map f) := by
  intro found read
  obtain ⟨value, first, same⟩ := Option.map_eq_some_iff.mp read
  rw [← same]
  exact holds value first

end

theorem wellKeyed_of_integer? {number : Int} (read : integer? number = some value) :
    value.WellKeyed := by
  rw [integer?] at read
  split at read
  · cases read
    exact .integer number
  · cases read

theorem wellKeyed_of_real? {negative : Bool} {digits : List Char} {exponent : Int}
    (read : real? negative digits exponent = some value) : value.WellKeyed := by
  simp only [real?] at read
  split at read
  · cases read
    exact .real
  · split at read
    · cases read
    · obtain ⟨magnitude, -, same⟩ := Option.map_eq_some_iff.mp read
      cases same
      exact .real

theorem decimalNumber_yields (negative : Bool) (text : List Char) :
    Yields Value.WellKeyed (decimalNumber negative text) := by
  refine yields_bind fun ⟨whole, rest⟩ _ => ?_
  dsimp only
  split
  · refine yields_bind fun ⟨fraction, rest⟩ _ => yields_bind fun ⟨exponent, rest⟩ _ => ?_
    exact yields_bind fun number read => yields_some (wellKeyed_of_real? read)
  · refine yields_bind fun ⟨exponent, rest⟩ _ => ?_
    exact yields_bind fun number read => yields_some (wellKeyed_of_real? read)
  · refine yields_bind fun ⟨exponent, rest⟩ _ => ?_
    exact yields_bind fun number read => yields_some (wellKeyed_of_real? read)
  · exact yields_bind fun number read => yields_some (wellKeyed_of_integer? read)

theorem basedNumber_yields (base : Nat) (isDigit : Char → Bool) (text : List Char) :
    Yields Value.WellKeyed (basedNumber base isDigit text) :=
  yields_bind fun _ _ => yields_bind fun _ read => yields_some (wellKeyed_of_integer? read)

theorem wordAfter_yields {word text : List Char} (keyed : value.WellKeyed) :
    Yields Value.WellKeyed (wordAfter word text value) := yields_map fun _ _ => keyed

theorem signedNumber_yields (negative : Bool) (text : List Char) :
    Yields Value.WellKeyed (signedNumber negative text) := by
  unfold signedNumber
  split
  · exact wordAfter_yields .real
  · exact wordAfter_yields .real
  · exact decimalNumber_yields negative _

theorem unsignedNumber_yields (text : List Char) : Yields Value.WellKeyed (unsignedNumber text) := by
  unfold unsignedNumber
  split
  · exact basedNumber_yields _ _ _
  · exact basedNumber_yields _ _ _
  · exact basedNumber_yields _ _ _
  · exact decimalNumber_yields false _

theorem scalar_yields (text : List Char) : Yields Value.WellKeyed (scalar text) := by
  unfold scalar
  split
  · exact wordAfter_yields (.boolean true)
  · exact wordAfter_yields (.boolean false)
  · exact wordAfter_yields .real
  · exact wordAfter_yields .real
  · exact signedNumber_yields false _
  · exact signedNumber_yields true _
  · split
    · exact yields_some .dateTime
    · exact unsignedNumber_yields text

/-- Values, items and pairs are read by one recursion, and so are these judged by one. -/
structure ReadsKeyed (fuel : Nat) : Prop where
  value : ∀ depth text, Yields Value.WellKeyed (Toml.value fuel depth text)
  items : ∀ depth text, Yields (∀ item ∈ ·, item.WellKeyed) (items fuel depth text)
  pairs : ∀ depth entries text, Entries.WellKeyed entries →
    Yields Entries.WellKeyed (pairs fuel depth entries text)

theorem readsKeyed_succ {fuel : Nat} (reads : ReadsKeyed fuel) : ReadsKeyed (fuel + 1) where
  value depth text := by
    unfold Toml.value
    split
    · exact yields_map fun _ _ => .text _
    · exact yields_map fun _ _ => .text _
    · split
      · exact yields_none
      · exact yields_map fun _ read => .array (reads.items _ _ _ read)
    · split
      · exact yields_none
      · split
        · exact yields_some (wellKeyed_inline_iff.mpr nil)
        · exact yields_map fun _ read => wellKeyed_inline_iff.mpr (reads.pairs _ _ _ nil _ read)
    · exact scalar_yields text
  items depth text := by
    unfold Toml.items
    split
    · exact yields_some (by simp)
    · refine yields_bind fun ⟨head, rest⟩ read => ?_
      have headKeyed : head.WellKeyed := reads.value _ _ _ read
      dsimp only
      split
      · refine yields_bind fun ⟨tail, rest⟩ read => yields_some ?_
        exact List.forall_mem_cons.mpr ⟨headKeyed, reads.items _ _ _ read⟩
      · exact yields_some (by simpa using headKeyed)
      · exact yields_none
  pairs depth entries text keyed := by
    unfold Toml.pairs
    refine yields_bind fun ⟨path, rest⟩ _ => ?_
    dsimp only
    split
    · refine yields_bind fun ⟨found, rest⟩ read => yields_bind fun after added => ?_
      have afterKeyed := wellKeyed_of_addDotted (reads.value _ _ _ read) keyed added
      dsimp only
      split
      · exact reads.pairs _ _ _ afterKeyed
      · exact yields_some afterKeyed
      · exact yields_none
    · exact yields_none

theorem readsKeyed (fuel : Nat) : ReadsKeyed fuel := by
  induction fuel with
  | zero =>
      constructor
      · exact fun _ _ => yields_none
      · exact fun _ _ => yields_none
      · exact fun _ _ _ _ => yields_none
  | succ fuel induction => exact readsKeyed_succ induction

def Progress.WellKeyed (progress : Progress) : Prop := Entries.WellKeyed progress.entries

variable {progress : Progress}

theorem openHeader_keyed {path : List String} {change : String → Entries → Option Entries}
    (changes : ∀ key before after, before.WellKeyed → change key before = some after →
      after.WellKeyed)
    (keyed : progress.WellKeyed) {opened : Progress}
    (opens : progress.openHeader path change = some opened) : opened.WellKeyed := by
  obtain ⟨last, -, opens⟩ := Option.bind_eq_some_iff.mp opens
  obtain ⟨entries, altered, same⟩ := Option.bind_eq_some_iff.mp opens
  cases same
  exact wellKeyed_of_alterAt (changes last) keyed altered

theorem header_yields (keyed : progress.WellKeyed) (text : List Char) :
    Yields Progress.WellKeyed (header progress text) := by
  unfold header
  split
  · refine yields_bind fun ⟨path, rest⟩ _ => ?_
    dsimp only
    split
    · refine yields_bind fun opened opens => yields_some ?_
      exact openHeader_keyed (fun _ _ _ => wellKeyed_of_openNext) keyed opens
    · exact yields_none
  · refine yields_bind fun ⟨path, rest⟩ _ => ?_
    dsimp only
    split
    · refine yields_bind fun opened opens => yields_some ?_
      exact openHeader_keyed (fun _ _ _ => wellKeyed_of_openTable) keyed opens
    · exact yields_none

theorem pair_yields (keyed : progress.WellKeyed) (text : List Char) :
    Yields Progress.WellKeyed (pair progress text) := by
  refine yields_bind fun ⟨path, rest⟩ _ => ?_
  dsimp only
  split
  · refine yields_bind fun ⟨found, rest⟩ read => yields_bind fun after altered => yields_some ?_
    have foundKeyed : found.WellKeyed := (readsKeyed _).value _ _ _ read
    exact wellKeyed_of_alterAt (fun _ _ => wellKeyed_of_addDotted foundKeyed) keyed altered
  · exact yields_none

theorem expression_yields (keyed : progress.WellKeyed) (text : List Char) :
    Yields Progress.WellKeyed (expression progress text) := by
  unfold expression
  split
  · exact yields_some keyed
  · exact yields_some keyed
  · exact yields_some keyed
  · exact yields_some keyed
  · exact header_yields keyed _
  · exact pair_yields keyed _

theorem wellKeyed_of_lines {fuel : Nat} {text : List Char} (keyed : progress.WellKeyed)
    (read : lines fuel progress text = some entries) : entries.WellKeyed := by
  induction fuel generalizing progress text with
  | zero => cases read
  | succ fuel induction =>
      obtain ⟨⟨next, rest⟩, expressed, read⟩ := Option.bind_eq_some_iff.mp read
      have nextKeyed : next.WellKeyed := expression_yields keyed _ _ expressed
      dsimp only at read
      split at read
      · cases read
        exact nextKeyed
      · obtain ⟨rest, -, read⟩ := Option.bind_eq_some_iff.mp read
        exact induction nextKeyed read

theorem wellKeyed_of_parse {text : String} (read : parse text = some entries) :
    entries.WellKeyed := by
  have blank : Progress.WellKeyed ⟨[], []⟩ := nil
  exact wellKeyed_of_lines blank read

end KeyCustody.Toml
