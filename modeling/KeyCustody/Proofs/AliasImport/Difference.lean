import KeyCustody.Proofs.AliasImport.Protocol
import KeyCustody.Proofs.Text.Replacement
import KeyCustody.Service.Scripted

namespace KeyCustody.AliasImport

/-! # Which names an import creates

A desired name counts as live if some live alias, with the mark taken out of it wherever it
stands, is that name. For names and aliases that hold the mark only where it belongs, at the
start of an alias, these are the names `name` with `alias/name` live, and no others. -/

/-- The mark of aliases occurs in the text. -/
def HoldsMark (text : String) : Prop := aliasMark.toList <:+: text.toList

instance (text : String) : Decidable (HoldsMark text) :=
  inferInstanceAs (Decidable (aliasMark.toList <:+: text.toList))

theorem bareName_mark_append (name : String) : bareName (aliasMark ++ name) = bareName name := by
  rw [bareName, bareName, String.toList_append, Text.replaceAll_append (by decide),
    List.nil_append]

theorem bareName_eq_iff (name : String) : bareName name = name ↔ ¬ HoldsMark name := by
  rw [HoldsMark, ← Text.replaceAll_nil_eq_iff (by decide), bareName]
  constructor
  · intro same
    simpa using congrArg String.toList same
  · intro same
    rw [same, String.ofList_toList]

theorem bareName_standard {name : String} (plain : ¬ HoldsMark name) :
    bareName (aliasMark ++ name) = name := by
  rw [bareName_mark_append, (bareName_eq_iff name).mpr plain]

def aliasesSent (calls : List Answered) : List String :=
  calls.filterMap fun answered =>
    match answered.question with
    | .createAlias _ name => some name
    | _ => none

theorem aliasesSent_append (before after : List Answered) :
    aliasesSent (before ++ after) = aliasesSent before ++ aliasesSent after :=
  List.filterMap_append

theorem Fetches.aliasesSent_eq {url : Option String} {calls : List Answered}
    {reading : Except Error (List String)} (fetches : Fetches url calls reading) :
    aliasesSent calls = [] := by
  cases fetches <;> rfl

theorem aliasesSent_completed (completed : List CompletedName) :
    aliasesSent (completed.flatMap CompletedName.calls) =
      completed.map fun complete => aliasMark ++ complete.name := by
  induction completed with
  | nil => rfl
  | cons first rest induction =>
      rw [List.flatMap_cons, aliasesSent_append, induction]
      rfl

/-- The created names are the desired ones without a live alias. -/
def CreatesExactly (created : List CreatedAlias) (desired : List String)
    (listing : Service.AliasListing) : Prop :=
  ∀ name, name ∈ created.map CreatedAlias.name ↔
    name ∈ desired ∧ aliasMark ++ name ∉ listing.aliases

/-- Every alias is the mark and a name without the mark. -/
def Standard (listing : Service.AliasListing) : Prop :=
  ∀ live ∈ listing.aliases, ∃ name, live = aliasMark ++ name ∧ ¬ HoldsMark name

/-- Taking out the mark tells which desired names are live. -/
structure Separates (desired : List String) (listing : Service.AliasListing) : Prop where
  /-- No name is taken for live on account of another alias. -/
  spares : ∀ name ∈ desired, ∀ live ∈ listing.aliases, bareName live = name →
    aliasMark ++ name ∈ listing.aliases
  /-- A live name that holds the mark, which is taken out of its alias twice, is still
  what some alias comes down to. -/
  finds : ∀ name ∈ desired, HoldsMark name → aliasMark ++ name ∈ listing.aliases →
    ∃ live ∈ listing.aliases, bareName live = name

theorem separates_iff (desired : List String) (listing : Service.AliasListing) :
    Separates desired listing ↔
      ∀ name ∈ desired,
        (name ∈ listing.aliases.map bareName ↔ aliasMark ++ name ∈ listing.aliases) := by
  constructor
  · intro separates name wanted
    constructor
    · intro taken
      obtain ⟨live, member, bare⟩ := List.mem_map.mp taken
      exact separates.spares name wanted live member bare
    · intro live
      by_cases marked : HoldsMark name
      · exact List.mem_map.mpr (separates.finds name wanted marked live)
      · exact List.mem_map.mpr ⟨_, live, bareName_standard marked⟩
  · intro same
    refine ⟨fun name wanted live member bare => ?_, fun name wanted marked live => ?_⟩
    · exact (same name wanted).mp (List.mem_map.mpr ⟨live, member, bare⟩)
    · exact List.mem_map.mp ((same name wanted).mpr live)

theorem Standard.separates {listing : Service.AliasListing} (standard : Standard listing)
    (desired : List String) : Separates desired listing := by
  constructor
  · intro name wanted live member bare
    obtain ⟨inner, rfl, plain⟩ := standard live member
    rw [bareName_standard plain] at bare
    rwa [← bare]
  · intro name wanted marked live
    obtain ⟨inner, same, plain⟩ := standard _ live
    have names : name = inner := by simpa using same
    exact absurd (names ▸ marked) plain

/-- An import whose calls are all granted creates the desired names that are no live alias
with the mark taken out. They are the desired names whose alias is not live exactly if taking
out the mark separates the two, as it does for every listing of standard aliases. -/
theorem created_iff_not_bareName (world : World Question Question.Reply σ) (state : σ)
    (names : List String) (url : Option String) (pace : Nat)
    (listing : Service.AliasListing) :
    let ran := (of names url pace).run.attempt.run world state
    ⟨.listAliases, .ok listing⟩ ∈ ran.calls → (∀ answered ∈ ran.calls, Granted answered) →
      ∃ fetching listed created, fetching <+: ran.calls ∧
        Fetches (usableUrl url) fetching (.ok listed) ∧ ran.value = .ok created ∧
        aliasesSent ran.calls = created.map (fun pair => aliasMark ++ pair.name) ∧
        (∀ name, name ∈ created.map CreatedAlias.name ↔
          name ∈ names ++ listed ∧ name ∉ listing.aliases.map bareName) ∧
        (CreatesExactly created (names ++ listed) listing ↔
          Separates (names ++ listed) listing) ∧
        (Standard listing → CreatesExactly created (names ++ listed) listing) := by
  intro ran asked granted
  have runs : Runs (of names url pace) ran.calls ran.value := (run_ensures _).holds world state
  obtain ⟨fetching, listed, completed, calls, fetches, missing, value⟩ :=
    runs.of_granted asked granted
  have createdNames : (completed.map CompletedName.created).map CreatedAlias.name =
      missingNames (names ++ listed) listing := List.map_map.trans missing.symm
  have exact_iff : CreatesExactly (completed.map CompletedName.created) (names ++ listed)
      listing ↔ Separates (names ++ listed) listing := by
    rw [separates_iff, CreatesExactly, createdNames]
    simp only [mem_missingNames]
    refine forall_congr' fun name => ?_
    by_cases wanted : name ∈ names ++ listed
    · simp only [wanted, true_and, true_imp_iff]
      exact Decidable.not_iff_not
    · simp only [wanted, false_and, false_imp_iff]
  refine ⟨fetching, listed, completed.map CompletedName.created, ?_, fetches, value, ?_, ?_,
    exact_iff, fun standard => exact_iff.mpr (standard.separates _)⟩
  · rw [calls]
    exact List.prefix_append _ _
  · rw [calls, aliasesSent_append, fetches.aliasesSent_eq, List.map_map]
    exact aliasesSent_completed completed
  · intro name
    rw [createdNames]
    exact mem_missingNames

/-- A provider that lists these aliases and grants everything else. -/
def lister (listing : Service.AliasListing) : (asked : Service.Call) → Except Error asked.Reply
  | .listAliases => .ok listing
  | asked => Service.Scripted.reply 1 none asked

def listingOf (live : List String) : Service.AliasListing := ⟨[⟨live.map fun name => ⟨name, none⟩⟩]⟩

/-- The live `alias/a` is spared, and `alias/alias/a` is created beside it. -/
theorem created_beside_live_alias :
    let ran := (of ["b", "a", "alias/a"] none 0).run.attempt.run
      (steadyWorld (lister (listingOf ["alias/a"]))) ()
    (⟨.listAliases, .ok (listingOf ["alias/a"])⟩ ∈ ran.calls ∧
      ∀ answered ∈ ran.calls, Granted answered) ∧
      ∃ fetching listed created, fetching <+: ran.calls ∧
        Fetches none fetching (.ok listed) ∧ ran.value = .ok created ∧
        aliasesSent ran.calls = created.map (fun pair => aliasMark ++ pair.name) ∧
        (∀ name, name ∈ created.map CreatedAlias.name ↔
          name ∈ ["b", "a", "alias/a"] ++ listed ∧
            name ∉ (listingOf ["alias/a"]).aliases.map bareName) ∧
        (CreatesExactly created (["b", "a", "alias/a"] ++ listed) (listingOf ["alias/a"]) ↔
          Separates (["b", "a", "alias/a"] ++ listed) (listingOf ["alias/a"])) ∧
        (Standard (listingOf ["alias/a"]) →
          CreatesExactly created (["b", "a", "alias/a"] ++ listed) (listingOf ["alias/a"])) := by
  intro ran
  have calls : ran.calls =
      [⟨.listAliases, .ok (listingOf ["alias/a"])⟩,
        ⟨.createKey "0", .ok ⟨"new-1", ""⟩⟩, ⟨.createAlias "new-1" "alias/alias/a", .ok ()⟩,
        ⟨.createKey "0", .ok ⟨"new-1", ""⟩⟩, ⟨.createAlias "new-1" "alias/b", .ok ()⟩] := rfl
  have asked : ⟨.listAliases, .ok (listingOf ["alias/a"])⟩ ∈ ran.calls := by
    rw [calls]
    exact List.mem_cons_self
  have granted : ∀ answered ∈ ran.calls, Granted answered := by
    rw [calls]
    simp [Granted]
  exact ⟨⟨asked, granted⟩,
    created_iff_not_bareName _ () ["b", "a", "alias/a"] none 0 _ asked granted⟩

/-- The mark is taken out of `alias/alias/x` twice: the name `alias/x`, which is live, is
created again, and the name `x`, which is not live, is passed over. -/
theorem live_name_created_again :
    let listing := listingOf ["alias/alias/x"]
    let ran := (of ["x", "alias/x"] none 0).run.attempt.run (steadyWorld (lister listing)) ()
    ⟨.listAliases, .ok listing⟩ ∈ ran.calls ∧ (∀ answered ∈ ran.calls, Granted answered) ∧
      ran.value = .ok [⟨"alias/x", "new-1"⟩] ∧
      aliasMark ++ "alias/x" ∈ listing.aliases ∧ aliasMark ++ "x" ∉ listing.aliases ∧
      ¬ CreatesExactly [⟨"alias/x", "new-1"⟩] ["x", "alias/x"] listing := by
  intro listing ran
  have calls : ran.calls =
      [⟨.listAliases, .ok listing⟩, ⟨.createKey "0", .ok ⟨"new-1", ""⟩⟩,
        ⟨.createAlias "new-1" "alias/alias/x", .ok ()⟩] := rfl
  refine ⟨?_, ?_, rfl, by decide, by decide, fun exactly => ?_⟩
  · rw [calls]
    exact List.mem_cons_self
  · rw [calls]
    simp [Granted]
  · have wanted := (exactly "x").mpr (by decide)
    exact absurd wanted (by decide)

end KeyCustody.AliasImport
