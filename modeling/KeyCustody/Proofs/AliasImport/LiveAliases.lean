import KeyCustody.Proofs.AliasImport.Difference
import Mathlib.Data.List.Sort

namespace KeyCustody.AliasImport

/-! # Live aliases

A provider whose live aliases are those that it had and those whose creation it granted. What a
run leaves live is then read off its calls, and what it lists is what was live at its start. -/

variable {world : World Question Question.Reply σ} {live : σ → List String}

/-- The alias that a call brought to life, if it did. -/
def grantedAlias? : Answered → Option String
  | ⟨.createAlias _ name, .ok _⟩ => some name
  | _ => none

def aliasesGranted (calls : List Answered) : List String := calls.filterMap grantedAlias?

theorem aliasesGranted_append (before after : List Answered) :
    aliasesGranted (before ++ after) = aliasesGranted before ++ aliasesGranted after :=
  List.filterMap_append

theorem mem_aliasesGranted_cons {name : String} {answered : Answered} {later : List Answered} :
    name ∈ aliasesGranted (answered :: later) ↔
      grantedAlias? answered = some name ∨ name ∈ aliasesGranted later := by
  simp [aliasesGranted]

/-- The aliases that are live grow by each one whose creation is granted and by nothing else,
and a listing shows those that are live. -/
structure KeepsAliases (world : World Question Question.Reply σ) (live : σ → List String) :
    Prop where
  listed : ∀ state listing, (world.reply (.call .listAliases) state).1 = .ok listing →
    ∀ name, name ∈ listing.aliases ↔ name ∈ live state
  calls : ∀ state asked name, name ∈ live (world.reply (.call asked) state).2 ↔
    name ∈ live state ∨
      grantedAlias? ⟨asked, (world.reply (.call asked) state).1⟩ = some name
  host : ∀ state request name,
    name ∈ live (world.reply (.host request) state).2 ↔ name ∈ live state

theorem KeepsAliases.grown (keeps : KeepsAliases world live) {state last : σ}
    {calls : List Answered} (traverses : Traverses world state calls last) (name : String) :
    name ∈ live last ↔ name ∈ live state ∨ name ∈ aliasesGranted calls := by
  induction traverses with
  | done state => simp [aliasesGranted]
  | call state last asked later rest induction =>
      rw [induction, keeps.calls, mem_aliasesGranted_cons, or_assoc]
  | host state last request calls rest induction => rw [induction, keeps.host]

theorem KeepsAliases.shown (keeps : KeepsAliases world live) {state last : σ}
    {calls : List Answered} (traverses : Traverses world state calls last)
    {before after : List Answered} {listing : Service.AliasListing}
    (split : calls = before ++ ⟨.listAliases, .ok listing⟩ :: after) (name : String) :
    name ∈ listing.aliases ↔ name ∈ live state ∨ name ∈ aliasesGranted before := by
  induction traverses generalizing before with
  | done state => simp at split
  | call state last asked later rest induction =>
      rcases List.cons_eq_append_iff.mp split with ⟨rfl, here⟩ | ⟨others, rfl, there⟩
      · obtain ⟨same, -⟩ := List.cons.inj here
        obtain ⟨rfl, answer⟩ := Exchange.mk.inj same
        simpa [aliasesGranted] using keeps.listed state listing (eq_of_heq answer).symm name
      · rw [induction there, keeps.calls, mem_aliasesGranted_cons, or_assoc]
  | host state last request calls rest induction => rw [induction split, keeps.host]

theorem aliases_listingOf (aliases : List String) : (listingOf aliases).aliases = aliases := by
  simp [listingOf, Service.AliasListing.aliases, Function.comp_def]

theorem eq_missingNames {names desired : List String} {listing : Service.AliasListing}
    (sorted : names.Pairwise (· < ·))
    (same : ∀ name, name ∈ names ↔ name ∈ desired ∧ name ∉ listing.aliases.map bareName) :
    names = missingNames desired listing :=
  sorted.eq_of_mem_iff (missingNames_sorted desired listing) fun name =>
    (same name).trans mem_missingNames.symm

theorem missingNames_congr {listing other : Service.AliasListing}
    (same : ∀ name, name ∈ listing.aliases ↔ name ∈ other.aliases) (desired : List String) :
    missingNames desired listing = missingNames desired other := by
  refine eq_missingNames (missingNames_sorted desired listing) fun name => ?_
  rw [mem_missingNames]
  simp only [List.mem_map, same]

/-- A name is no longer missing once its own alias is live, and no alias of another name makes
it so. -/
theorem missingNames_of_grown {desired aliases done rest grown : List String}
    (plain : ∀ name ∈ desired, ¬ HoldsMark name)
    (missing : missingNames desired (listingOf aliases) = done ++ rest)
    (same : ∀ name, name ∈ grown ↔ name ∈ aliases ∨ name ∈ done.map (aliasMark ++ ·)) :
    missingNames desired (listingOf grown) = rest := by
  have sorted := missingNames_sorted desired (listingOf aliases)
  have member (name : String) : name ∈ done ∨ name ∈ rest ↔
      name ∈ desired ∧ name ∉ aliases.map bareName := by
    rw [← List.mem_append, ← missing, mem_missingNames, aliases_listingOf]
  have bare (name : String) (completed : name ∈ done) : bareName (aliasMark ++ name) = name :=
    bareName_standard (plain name ((member name).mp (.inl completed)).1)
  have grownBare (name : String) :
      name ∈ grown.map bareName ↔ name ∈ aliases.map bareName ∨ name ∈ done := by
    simp only [List.mem_map, same]
    constructor
    · rintro ⟨_, stood | ⟨completed, member, rfl⟩, rfl⟩
      · exact .inl ⟨_, stood, rfl⟩
      · exact .inr ((bare completed member).symm ▸ member)
    · rintro (⟨stood, member, rfl⟩ | completed)
      · exact ⟨stood, .inl member, rfl⟩
      · exact ⟨_, .inr ⟨name, completed, rfl⟩, bare name completed⟩
  -- The missing names are sorted, so the completed ones do not come again among the rest.
  rw [missing, List.pairwise_append] at sorted
  obtain ⟨-, restSorted, ahead⟩ := sorted
  refine (eq_missingNames restSorted fun name => ?_).symm
  rw [aliases_listingOf, grownBare, not_or, ← and_assoc, ← member]
  constructor
  · intro later
    exact ⟨.inr later, fun earlier => String.lt_irrefl name (ahead name earlier name later)⟩
  · rintro ⟨earlier | later, notDone⟩
    · exact absurd earlier notDone
    · exact later

end KeyCustody.AliasImport
