import KeyCustody.AliasImport
import KeyCustody.Proofs.Text.Order
import KeyCustody.Proofs.Transcript

namespace KeyCustody.AliasImport

/-! # The course of an import

The manifest is read before the key service is asked anything. Then the live aliases are
listed once, and each missing name gets its key and its alias, in the order of the names,
up to the first call that fails. -/

theorem mem_insertName {name other : String} {names : List String} :
    other ∈ insertName name names ↔ other = name ∨ other ∈ names := by
  induction names with
  | nil => simp [insertName]
  | cons first rest induction =>
      rw [insertName]
      split
      · exact List.mem_cons
      · split
        · rename_i same
          simp [same]
        · simp only [List.mem_cons, induction]
          exact or_left_comm

theorem insertName_sorted {name : String} {names : List String}
    (sorted : names.Pairwise (· < ·)) : (insertName name names).Pairwise (· < ·) := by
  induction names with
  | nil => exact List.pairwise_singleton _ _
  | cons first rest induction =>
      obtain ⟨least, restSorted⟩ := List.pairwise_cons.mp sorted
      rw [insertName]
      split
      · rename_i less
        refine List.pairwise_cons.mpr ⟨fun other member => ?_, sorted⟩
        rcases List.mem_cons.mp member with rfl | later
        · exact less
        · exact String.lt_trans less (least other later)
      · rename_i notLess
        split
        · exact sorted
        · rename_i different
          have greater : first < name := by
            refine Classical.byContradiction fun notGreater => different ?_
            exact String.le_antisymm (String.not_lt.mp notGreater) (String.not_lt.mp notLess)
          refine List.pairwise_cons.mpr ⟨fun other member => ?_, induction restSorted⟩
          rcases mem_insertName.mp member with rfl | later
          · exact greater
          · exact least other later

theorem mem_nameSet {name : String} {names : List String} : name ∈ nameSet names ↔ name ∈ names := by
  induction names with
  | nil => simp [nameSet]
  | cons first rest induction =>
      rw [nameSet, List.foldr_cons, mem_insertName, List.mem_cons]
      exact or_congr_right induction

theorem nameSet_sorted (names : List String) : (nameSet names).Pairwise (· < ·) := by
  induction names with
  | nil => exact .nil
  | cons first rest induction => exact insertName_sorted induction

/-- A name that got a key and its alias. -/
structure CompletedName where
  name : String
  keyName : String
  key : Service.CreatedKey

namespace CompletedName

/-- The alias is given to the key that the call right before it created. -/
def calls (completed : CompletedName) : List Answered :=
  [⟨.createKey completed.keyName, .ok completed.key⟩,
    ⟨.createAlias completed.key.keyId (aliasMark ++ completed.name), .ok ()⟩]

def created (completed : CompletedName) : CreatedAlias := ⟨completed.name, completed.key.keyId⟩

end CompletedName

/-- The calls for a name at which an import stops: it gets no key, or a key without its
alias. -/
inductive StopsAt (name : String) (cause : Error) : List Answered → Prop where
  | keyRefused (keyName : String) : StopsAt name cause [⟨.createKey keyName, .error cause⟩]
  | aliasRefused (keyName : String) (key : Service.CreatedKey) :
      StopsAt name cause
        [⟨.createKey keyName, .ok key⟩,
          ⟨.createAlias key.keyId (aliasMark ++ name), .error cause⟩]

/-- The calls that create missing names in turn, with what they come to. Where a call
fails, the names before it are complete and the names after it are not touched. -/
inductive Creates (missing : List String) :
    List Answered → Except Error (List CreatedAlias) → Prop where
  | finished (completed : List CompletedName)
      (names : missing = completed.map CompletedName.name) :
      Creates missing (completed.flatMap CompletedName.calls)
        (.ok (completed.map CompletedName.created))
  | stopped (completed : List CompletedName) (name : String) (later : List String)
      (cause : Error) (last : List Answered)
      (names : missing = completed.map CompletedName.name ++ name :: later)
      (stops : StopsAt name cause last) :
      Creates missing (completed.flatMap CompletedName.calls ++ last) (.error cause)

theorem Creates.cons {missing : List String} {calls : List Answered}
    {result : Except Error (List CreatedAlias)} (completed : CompletedName)
    (creates : Creates missing calls result) :
    Creates (completed.name :: missing) (completed.calls ++ calls)
      (result.map (completed.created :: ·)) := by
  cases creates with
  | finished rest names =>
      subst names
      exact .finished (completed :: rest) rfl
  | stopped rest name later cause last names stops =>
      subst names
      rw [← List.append_assoc]
      exact .stopped (completed :: rest) name later cause last rfl stops

theorem createPair_ensures (name : String) :
    (createPair name).Ensures fun calls result =>
      match result with
      | .ok created =>
          ∃ completed : CompletedName,
            completed.name = name ∧ calls = completed.calls ∧ created = completed.created
      | .error cause => StopsAt name cause calls := by
  simp only [createPair, Errand.ensures_bind, Errand.ensures_lift, Custody.ensures_now,
    Custody.ensures_note, Errand.ensures_pure, List.nil_append, List.append_nil]
  intro instant keyAnswer
  cases keyAnswer with
  | error cause => exact .keyRefused _
  | ok key =>
      intro aliasAnswer
      cases aliasAnswer with
      | error cause => exact .aliasRefused _ key
      | ok done => exact ⟨⟨name, _, key⟩, rfl, rfl, rfl⟩

theorem createAll_ensures (pace : Nat) (missing : List String) :
    (createAll pace missing).Ensures (Creates missing) := by
  induction missing with
  | nil => exact .finished [] rfl
  | cons name rest induction =>
      rw [createAll]
      refine (createPair_ensures name).bind (fun calls created made => ?_)
        (fun calls cause stops => .stopped [] name rest cause calls rfl stops)
      obtain ⟨completed, rfl, rfl, rfl⟩ := made
      have others : Errand.Ensures (do pure (completed.created :: (← createAll pace rest)))
          fun after last => Creates (completed.name :: rest) (completed.calls ++ after) last := by
        rw [Errand.ensures_bind_pure]
        exact induction.mono fun calls result creates => creates.cons completed
      dsimp only
      split
      · simpa only [Errand.ensures_bind, Errand.ensures_lift, Custody.ensures_sleep,
          List.nil_append] using others
      · exact others

theorem Creates.not_listing {missing : List String} {calls : List Answered}
    {result : Except Error (List CreatedAlias)} (creates : Creates missing calls result)
    (answer : Except Error Service.AliasListing) : ⟨.listAliases, answer⟩ ∉ calls := by
  have complete (completed : List CompletedName) :
      ⟨.listAliases, answer⟩ ∉ completed.flatMap CompletedName.calls := by
    simp [CompletedName.calls]
  cases creates with
  | finished completed names => exact complete completed
  | stopped completed name later cause last names stops =>
      rw [List.mem_append, not_or]
      refine ⟨complete completed, ?_⟩
      cases stops <;> simp

theorem Creates.of_granted {missing : List String} {calls : List Answered}
    {result : Except Error (List CreatedAlias)} (creates : Creates missing calls result)
    (granted : ∀ answered ∈ calls, Granted answered) :
    ∃ completed : List CompletedName, missing = completed.map CompletedName.name ∧
      calls = completed.flatMap CompletedName.calls ∧
      result = .ok (completed.map CompletedName.created) := by
  cases creates with
  | finished completed names => exact ⟨completed, names, rfl, rfl⟩
  | stopped completed name later cause last names stops =>
      have lastGranted : ∀ answered ∈ last, Granted answered := fun answered member =>
        granted answered (List.mem_append_right _ member)
      cases stops with
      | keyRefused keyName =>
          exact absurd (lastGranted _ (List.mem_singleton_self _)) not_granted_error
      | aliasRefused keyName key =>
          exact absurd (lastGranted _ (List.mem_cons_of_mem _ (List.mem_singleton_self _)))
            not_granted_error

/-- The calls that fetch the manifest of an import, with the names that it lists. At most
one object is asked for, and without a usable URL none. -/
inductive Fetches : Option String → List Answered → Except Error (List String) → Prop where
  | nothing : Fetches none [] (.ok [])
  | malformed (url : String) (cause : Error) (parsed : ObjectLocation.parse url = .error cause) :
      Fetches (some url) [] (.error cause)
  | failed (url : String) (location : ObjectLocation) (cause : Error)
      (parsed : ObjectLocation.parse url = .ok location) :
      Fetches (some url) [⟨.getObject location, .error cause⟩] (.error cause)
  | refused (url : String) (location : ObjectLocation) (answer : Service.ObjectAnswer)
      (parsed : ObjectLocation.parse url = .ok location) (refusal : 300 ≤ answer.status) :
      Fetches (some url) [⟨.getObject location, .ok answer⟩]
        (.error (.manifest
          (.refused answer.status (answer.code.getD "") (answer.detail.getD ""))))
  | unreadable (url : String) (location : ObjectLocation) (answer : Service.ObjectAnswer)
      (cause : Error) (parsed : ObjectLocation.parse url = .ok location)
      (granted : answer.status < 300) (read : Manifest.parse answer.body = .error cause) :
      Fetches (some url) [⟨.getObject location, .ok answer⟩] (.error cause)
  | listed (url : String) (location : ObjectLocation) (answer : Service.ObjectAnswer)
      (manifest : Manifest) (parsed : ObjectLocation.parse url = .ok location)
      (granted : answer.status < 300) (read : Manifest.parse answer.body = .ok manifest) :
      Fetches (some url) [⟨.getObject location, .ok answer⟩] (.ok manifest.names)

theorem fetchManifest_ensures (url : String) :
    (fetchManifest url).Ensures fun calls result =>
      Fetches (some url) calls (result.map Manifest.names) := by
  simp only [fetchManifest, Errand.ensures_bind, Errand.ensures_liftExcept,
    Errand.ensures_noting, List.nil_append]
  cases parsed : ObjectLocation.parse url with
  | error cause => exact .malformed url cause parsed
  | ok location =>
      refine Errand.ensures_call.mpr fun answer => ?_
      cases answer with
      | error cause => exact .failed url location cause parsed
      | ok answer =>
          dsimp only
          by_cases refusal : refusalStatus ≤ answer.status
          · rw [if_pos refusal]
            simp only [Errand.ensures_bind, Errand.ensures_lift, Custody.ensures_note,
              Errand.ensures_throw, List.append_nil]
            exact .refused url location answer parsed refusal
          · rw [if_neg refusal, Errand.ensures_liftExcept, List.append_nil]
            have granted : answer.status < 300 := Nat.lt_of_not_le refusal
            cases read : Manifest.parse answer.body with
            | error cause => exact .unreadable url location answer cause parsed granted read
            | ok manifest => exact .listed url location answer manifest parsed granted read

theorem manifestNames_ensures (url : Option String) :
    (manifestNames url).Ensures (Fetches url) := by
  cases url with
  | none => exact .nothing
  | some url =>
      rw [manifestNames, Errand.ensures_bind_pure]
      exact fetchManifest_ensures url

theorem Fetches.not_listing {url : Option String} {calls : List Answered}
    {reading : Except Error (List String)} (fetches : Fetches url calls reading)
    (answer : Except Error Service.AliasListing) : ⟨.listAliases, answer⟩ ∉ calls := by
  cases fetches <;> simp

/-- The desired names that are not live, smallest first. -/
def missingNames (desired : List String) (listing : Service.AliasListing) : List String :=
  (nameSet desired).filter fun name => !(listing.aliases.map bareName).contains name

theorem mem_missingNames {name : String} {desired : List String}
    {listing : Service.AliasListing} :
    name ∈ missingNames desired listing ↔
      name ∈ desired ∧ name ∉ listing.aliases.map bareName := by
  rw [missingNames, List.mem_filter, mem_nameSet, Bool.not_eq_true', ← Bool.not_eq_true,
    List.contains_iff_mem]

theorem missingNames_sorted (desired : List String) (listing : Service.AliasListing) :
    (missingNames desired listing).Pairwise (· < ·) :=
  (nameSet_sorted desired).filter _

def Asks (request : AliasImport) : Prop := request.names ≠ [] ∨ request.manifestUrl ≠ none

theorem asks_iff (request : AliasImport) :
    request.Asks ↔ ¬ (request.names.isEmpty ∧ request.manifestUrl.isNone) := by
  rw [Asks, List.isEmpty_iff, Option.isNone_iff_eq_none, Decidable.not_and_iff_or_not]

inductive Runs (request : AliasImport) :
    List Answered → Except Error (List CreatedAlias) → Prop where
  | idle (nothing : ¬ request.Asks) : Runs request [] (.ok [])
  | unread (asks : request.Asks) (fetching : List Answered) (cause : Error)
      (fetches : Fetches request.manifestUrl fetching (.error cause)) :
      Runs request fetching (.error cause)
  | unlisted (asks : request.Asks) (fetching : List Answered) (listed : List String)
      (cause : Error) (fetches : Fetches request.manifestUrl fetching (.ok listed)) :
      Runs request (fetching ++ [⟨.listAliases, .error cause⟩]) (.error cause)
  | diffed (asks : request.Asks) (fetching : List Answered) (listed : List String)
      (listing : Service.AliasListing) (creating : List Answered)
      (result : Except Error (List CreatedAlias))
      (fetches : Fetches request.manifestUrl fetching (.ok listed))
      (creates : Creates (missingNames (request.names ++ listed) listing) creating result) :
      Runs request (fetching ++ ⟨.listAliases, .ok listing⟩ :: creating) result

theorem run_ensures (request : AliasImport) : request.run.Ensures request.Runs := by
  rw [run]
  split
  · rename_i nothing
    rw [Errand.ensures_bind]
    simp only [Errand.ensures_lift, Custody.ensures_note, Errand.ensures_pure, List.append_nil]
    exact .idle fun asks => (asks_iff request).mp asks nothing
  · rename_i something
    have asks : request.Asks := (asks_iff request).mpr something
    refine (manifestNames_ensures request.manifestUrl).bind (fun fetching listed fetches => ?_)
      (fun fetching cause fetches => .unread asks fetching cause fetches)
    rw [Errand.ensures_bind]
    refine Errand.ensures_call.mpr fun answer => ?_
    cases answer with
    | error cause => exact .unlisted asks fetching listed cause fetches
    | ok listing =>
        refine (createAll_ensures _ _).mono fun creating result creates => ?_
        exact .diffed asks fetching listed listing creating result fetches creates

/-- An import that lists the live aliases, and whose calls are all granted, completes every
missing name. -/
theorem Runs.of_granted {request : AliasImport} {calls : List Answered}
    {result : Except Error (List CreatedAlias)} (runs : Runs request calls result)
    {listing : Service.AliasListing} (asked : ⟨.listAliases, .ok listing⟩ ∈ calls)
    (granted : ∀ answered ∈ calls, Granted answered) :
    ∃ fetching listed, ∃ completed : List CompletedName,
      calls = fetching ++ ⟨.listAliases, .ok listing⟩ :: completed.flatMap CompletedName.calls ∧
      Fetches request.manifestUrl fetching (.ok listed) ∧
      missingNames (request.names ++ listed) listing = completed.map CompletedName.name ∧
      result = .ok (completed.map CompletedName.created) := by
  cases runs with
  | idle nothing => cases asked
  | unread asks _ cause fetches => exact absurd asked (fetches.not_listing _)
  | unlisted asks fetching listed cause fetches =>
      exact absurd (granted _ (List.mem_append_right _ (List.mem_singleton_self _)))
        not_granted_error
  | diffed asks fetching listed current creating result fetches creates =>
      obtain ⟨completed, names, rfl, rfl⟩ := creates.of_granted fun answered member =>
        granted answered (List.mem_append_right _ (List.mem_cons_of_mem _ member))
      have same : listing = current := by
        rcases List.mem_append.mp asked with early | late
        · exact absurd early (fetches.not_listing _)
        · rcases List.mem_cons.mp late with here | creating
          · cases here
            rfl
          · exact absurd creating (creates.not_listing _)
      subst same
      exact ⟨fetching, listed, completed, rfl, fetches, names, rfl⟩

theorem of_asks_iff {names : List String} {url : Option String} {pace : Nat} :
    (of names url pace).Asks ↔ ¬ (names = [] ∧ (url = none ∨ url = some "")) := by
  have usable : usableUrl url = none ↔ url = none ∨ url = some "" := by
    cases url <;> simp [usableUrl, Option.filter]
  rw [Asks, of, Ne, Ne, usable, Decidable.not_and_iff_or_not]

/-- Whatever the provider answers, an import keeps to its course. With no name and no URL
nothing is called. Otherwise the manifest comes before every call to the key service, and
ends the import where it cannot be had; then the live aliases are listed once; then the
missing names are created in the order of their octets, each alias given to the key that was
created right before it, up to the first call that fails. -/
theorem run_keeps_course (world : World Question Question.Reply σ) (state : σ)
    (names : List String) (url : Option String) (pace : Nat) :
    let ran := (of names url pace).run.attempt.run world state
    (names = [] ∧ (url = none ∨ url = some "") → ran.calls = [] ∧ ran.value = .ok []) ∧
    (¬ (names = [] ∧ (url = none ∨ url = some "")) →
      ∃ fetching reading following, ran.calls = fetching ++ following ∧
        Fetches (usableUrl url) fetching reading ∧
        match reading with
        | .error cause => following = [] ∧ ran.value = .error cause
        | .ok listed =>
            ∃ (answer : Except Error Service.AliasListing) (creating : List Answered),
              following = ⟨.listAliases, answer⟩ :: creating ∧
              match answer with
              | .error cause => creating = [] ∧ ran.value = .error cause
              | .ok listing =>
                  ∃ missing, Creates missing creating ran.value ∧
                    missing.Pairwise (fun first second =>
                      Text.octets first < Text.octets second) ∧
                    ∀ name, name ∈ missing ↔
                      (name ∈ names ∨ name ∈ listed) ∧
                        name ∉ listing.aliases.map bareName) := by
  intro ran
  have runs : Runs (of names url pace) ran.calls ran.value := (run_ensures _).holds world state
  constructor
  · intro nothing
    have idle : ¬ (of names url pace).Asks := fun asks => of_asks_iff.mp asks nothing
    generalize ran.calls = calls at runs ⊢
    generalize ran.value = result at runs ⊢
    cases runs with
    | idle => exact ⟨rfl, rfl⟩
    | unread asks => exact absurd asks idle
    | unlisted asks => exact absurd asks idle
    | diffed asks => exact absurd asks idle
  · intro something
    have asks : (of names url pace).Asks := of_asks_iff.mpr something
    generalize ran.calls = calls at runs ⊢
    generalize ran.value = result at runs ⊢
    cases runs with
    | idle nothing => exact absurd asks nothing
    | unread _ _ cause fetches =>
        exact ⟨calls, .error cause, [], (List.append_nil calls).symm, fetches, rfl, rfl⟩
    | unlisted _ fetching listed cause fetches =>
        exact ⟨fetching, .ok listed, _, rfl, fetches, .error cause, [], rfl, rfl, rfl⟩
    | diffed _ fetching listed listing creating result fetches creates =>
        refine ⟨fetching, .ok listed, _, rfl, fetches, .ok listing, creating, rfl, _, creates,
          ?_, ?_⟩
        · exact (missingNames_sorted _ _).imp Text.octets_lt
        · intro name
          rw [mem_missingNames, List.mem_append]
          exact Iff.rfl

end KeyCustody.AliasImport
