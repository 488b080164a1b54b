import KeyCustody.Proofs.AliasImport.LiveAliases

namespace KeyCustody.AliasImport

/-! # A second run

An import that broke off is taken up by running it again: the names that got their aliases are
live by then, and the second run creates the others. -/

variable {world : World Question Question.Reply σ} {live : σ → List String}
  {request : AliasImport} {missing done rest : List String} {calls : List Answered}
  {result : Except Error (List CreatedAlias)}

/-- The call creates a key or an alias. -/
def isCreation (answered : Answered) : Bool :=
  match answered.question with
  | .createKey _ => true
  | .createAlias _ _ => true
  | _ => false

def creations (calls : List Answered) : List Answered := calls.filter isCreation

theorem creations_append (before after : List Answered) :
    creations (before ++ after) = creations before ++ creations after := List.filter_append ..

theorem Fetches.creations_eq {url : Option String} {reading : Except Error (List String)}
    (fetches : Fetches url calls reading) : creations calls = [] := by
  cases fetches <;> rfl

theorem creations_completed (completed : List CompletedName) :
    creations (completed.flatMap CompletedName.calls) =
      completed.flatMap CompletedName.calls := by
  refine List.filter_eq_self.mpr fun answered member => ?_
  obtain ⟨complete, -, call⟩ := List.mem_flatMap.mp member
  rcases List.mem_pair.mp call with rfl | rfl <;> rfl

theorem filterMap_of_no_creation {pick : Answered → Option String}
    (creating : ∀ answered, isCreation answered = false → pick answered = none)
    (none : creations calls = []) : calls.filterMap pick = [] := by
  refine List.filterMap_eq_nil_iff.mpr fun answered member => creating answered ?_
  simpa using List.filter_eq_nil_iff.mp none answered member

theorem aliasesGranted_of_no_creation (none : creations calls = []) :
    aliasesGranted calls = [] := by
  refine filterMap_of_no_creation (fun ⟨asked, answer⟩ other => ?_) none
  cases asked with
  | createAlias keyId name => cases other
  | _ => rfl

theorem aliasesSent_of_no_creation (none : creations calls = []) : aliasesSent calls = [] := by
  refine filterMap_of_no_creation (fun ⟨asked, answer⟩ other => ?_) none
  cases asked with
  | createAlias keyId name => cases other
  | _ => rfl

theorem aliasesGranted_completed (completed : List CompletedName) :
    aliasesGranted (completed.flatMap CompletedName.calls) =
      (completed.map CompletedName.name).map (aliasMark ++ ·) := by
  induction completed with
  | nil => rfl
  | cons first rest induction =>
      rw [List.flatMap_cons, aliasesGranted_append, induction]
      rfl

/-- What one run does about the missing names: it completes the first of them and leaves the
rest, and sends no alias of another name. A run that does not fail leaves none. -/
structure Advances (missing done rest : List String) (calls : List Answered)
    (result : Except Error (List CreatedAlias)) : Prop where
  split : missing = done ++ rest
  granted : aliasesGranted calls = done.map (aliasMark ++ ·)
  sent : ∀ text ∈ aliasesSent calls, ∃ name ∈ missing, text = aliasMark ++ name
  finished : ∀ created, result = .ok created → rest = [] ∧
    ∃ completed : List CompletedName, missing = completed.map CompletedName.name ∧
      created = completed.map CompletedName.created ∧
      creations calls = completed.flatMap CompletedName.calls
  idle : missing = [] → creations calls = []

theorem advances_of_no_creation {cause : Error} (none : creations calls = []) :
    Advances missing [] missing calls (.error cause) where
  split := rfl
  granted := aliasesGranted_of_no_creation none
  sent text member := by
    rw [aliasesSent_of_no_creation none] at member
    cases member
  finished created ok := nomatch ok
  idle _ := none

theorem Advances.after {before : List Answered} (none : creations before = [])
    (advances : Advances missing done rest calls result) :
    Advances missing done rest (before ++ calls) result where
  split := advances.split
  granted := by
    rw [aliasesGranted_append, aliasesGranted_of_no_creation none]
    exact advances.granted
  sent := by
    rw [aliasesSent_append, aliasesSent_of_no_creation none]
    exact advances.sent
  finished := by
    rw [creations_append, none]
    exact advances.finished
  idle := by
    rw [creations_append, none]
    exact advances.idle

theorem StopsAt.aliasesGranted_eq {name : String} {cause : Error}
    (stops : StopsAt name cause calls) : aliasesGranted calls = [] := by
  cases stops <;> rfl

theorem StopsAt.aliasesSent {name : String} {cause : Error} (stops : StopsAt name cause calls)
    {text : String} (member : text ∈ aliasesSent calls) : text = aliasMark ++ name := by
  cases stops with
  | keyRefused keyName => cases member
  | aliasRefused keyName key => exact List.mem_singleton.mp member

theorem Creates.advances (creates : Creates missing calls result) :
    ∃ done rest, Advances missing done rest calls result := by
  cases creates with
  | finished completed names =>
      refine ⟨missing, [], (List.append_nil _).symm, ?_, ?_, ?_, ?_⟩
      · rw [aliasesGranted_completed, names]
      · intro text member
        rw [aliasesSent_completed] at member
        obtain ⟨complete, made, rfl⟩ := List.mem_map.mp member
        exact ⟨complete.name, names ▸ List.mem_map_of_mem made, rfl⟩
      · rintro created ⟨⟩
        exact ⟨rfl, completed, names, rfl, creations_completed completed⟩
      · intro none
        rw [List.map_eq_nil_iff.mp (names.symm.trans none)]
        rfl
  | stopped completed name later cause last names stops =>
      refine ⟨completed.map CompletedName.name, name :: later, names, ?_, ?_, ?_, ?_⟩
      · rw [aliasesGranted_append, aliasesGranted_completed, stops.aliasesGranted_eq,
          List.append_nil]
      · intro text member
        rw [aliasesSent_append, aliasesSent_completed] at member
        rcases List.mem_append.mp member with earlier | here
        · obtain ⟨complete, made, rfl⟩ := List.mem_map.mp earlier
          exact ⟨complete.name, names ▸ List.mem_append_left _ (List.mem_map_of_mem made), rfl⟩
        · exact ⟨name, names ▸ List.mem_append_right _ List.mem_cons_self, stops.aliasesSent here⟩
      · intro created ok
        cases ok
      · intro none
        rw [names] at none
        simp at none

/-- Two runs of which the second leaves nothing complete each missing name once between them. -/
theorem Advances.granted_twice {others : List String} {later : List Answered}
    {last : Except Error (List CreatedAlias)} (begun : Advances missing done rest calls result)
    (resumed : Advances rest others [] later last) :
    aliasesGranted (calls ++ later) = missing.map (aliasMark ++ ·) := by
  rw [aliasesGranted_append, begun.granted, resumed.granted, begun.split, resumed.split,
    List.append_nil, List.map_append]

theorem Advances.sent_twice {others left : List String} {later : List Answered}
    {last : Except Error (List CreatedAlias)} (begun : Advances missing done rest calls result)
    (resumed : Advances rest others left later last) {text : String}
    (member : text ∈ aliasesSent (calls ++ later)) :
    ∃ name ∈ missing, text = aliasMark ++ name := by
  rw [aliasesSent_append] at member
  rcases List.mem_append.mp member with earlier | now
  · exact begun.sent text earlier
  · obtain ⟨name, still, rfl⟩ := resumed.sent text now
    exact ⟨name, begun.split ▸ List.mem_append_right done still, rfl⟩

/-- The URL is one of an object, and what is given there lists these names wherever it reads as
a manifest. Without a URL there are no names. -/
def Publishes (world : World Question Question.Reply σ) (listed : List String) :
    Option String → Prop
  | none => listed = []
  | some url => ∃ location, ObjectLocation.parse url = .ok location ∧
      ∀ state answer manifest, (world.reply (.call (.getObject location)) state).1 = .ok answer →
        answer.status < 300 → Manifest.parse answer.body = .ok manifest → manifest.names = listed

/-- The call got what it asks for. A refusal of the object store is not that, nor is a body that
does not read as a manifest. -/
def succeeds : Answered → Bool
  | ⟨.getObject _, .ok answer⟩ => answer.status < 300 && (Manifest.parse answer.body).isOk
  | ⟨_, answer⟩ => answer.isOk

theorem granted_of_succeeds {answered : Answered} (success : succeeds answered) :
    Granted answered := by
  obtain ⟨asked, answer⟩ := answered
  cases answer with
  | ok reply => exact ⟨reply, rfl⟩
  | error cause => cases asked <;> cases success

theorem Publishes.names_eq {listed names : List String} {url : Option String} {state last : σ}
    {later : List Answered} (publishes : Publishes world listed url)
    (fetches : Fetches url calls (.ok names))
    (traverses : Traverses world state (calls ++ later) last) : names = listed := by
  cases fetches with
  | nothing => exact publishes.symm
  | listed url location answer manifest parsed granted read =>
      obtain ⟨known, same, gives⟩ := publishes
      cases parsed.symm.trans same
      obtain ⟨held, given⟩ := traverses.exists_reply List.mem_cons_self
      exact gives held answer manifest given.symm granted read

theorem Publishes.not_failing {listed : List String} {url : Option String} {cause : Error}
    (publishes : Publishes world listed url) (success : ∀ answered ∈ calls, succeeds answered) :
    ¬ Fetches url calls (.error cause) := by
  intro fetches
  cases fetches with
  | malformed url cause parsed =>
      obtain ⟨location, same, -⟩ := publishes
      cases parsed.symm.trans same
  | failed url location cause parsed => cases success _ List.mem_cons_self
  | refused url location answer parsed refusal =>
      have accepted := success _ List.mem_cons_self
      rw [succeeds, Bool.and_eq_true, decide_eq_true_iff] at accepted
      exact absurd accepted.1 (Nat.not_lt.mpr refusal)
  | unreadable url location answer cause parsed granted read =>
      have readable := success _ List.mem_cons_self
      rw [succeeds, read, Bool.and_eq_true] at readable
      cases readable.2

theorem Runs.exists_created {listed : List String} (runs : Runs request calls result)
    (publishes : Publishes world listed request.manifestUrl)
    (success : ∀ answered ∈ calls, succeeds answered) : ∃ created, result = .ok created := by
  cases runs with
  | idle nothing => exact ⟨[], rfl⟩
  | unread asks fetching cause fetches => exact absurd fetches (publishes.not_failing success)
  | unlisted asks fetching listed cause fetches =>
      have listing := success _ (List.mem_append_right _ List.mem_cons_self)
      exact absurd (granted_of_succeeds listing) not_granted_error
  | diffed asks fetching listed listing creating result fetches creates =>
      obtain ⟨completed, -, -, made⟩ := creates.of_granted fun answered member =>
        granted_of_succeeds (success answered (List.mem_append_right _ (.tail _ member)))
      exact ⟨_, made⟩

theorem Runs.advances {listed : List String} {state last : σ} (runs : Runs request calls result)
    (traverses : Traverses world state calls last) (keeps : KeepsAliases world live)
    (publishes : Publishes world listed request.manifestUrl) :
    ∃ done rest, Advances (missingNames (request.names ++ listed) (listingOf (live state))) done
      rest calls result := by
  -- Nothing is created before the listing, which therefore shows what was live at the start.
  cases runs with
  | idle nothing =>
      obtain ⟨noNames, noUrl⟩ := not_or.mp nothing
      rw [not_not.mp noUrl] at publishes
      rw [not_not.mp noNames, show listed = [] from publishes]
      exact ⟨[], [], rfl, rfl, nofun, fun created ok => ⟨rfl, [], rfl, by simpa using ok.symm, rfl⟩,
        fun _ => rfl⟩
  | unread asks fetching cause fetches =>
      exact ⟨[], _, advances_of_no_creation fetches.creations_eq⟩
  | unlisted asks fetching listed cause fetches =>
      refine ⟨[], _, advances_of_no_creation ?_⟩
      rw [creations_append, fetches.creations_eq]
      rfl
  | diffed asks fetching names listing creating result fetches creates =>
      obtain rfl := publishes.names_eq fetches traverses
      have shown (name : String) : name ∈ listing.aliases ↔
          name ∈ (listingOf (live state)).aliases := by
        rw [keeps.shown traverses rfl name, aliases_listingOf,
          aliasesGranted_of_no_creation fetches.creations_eq]
        simp
      rw [missingNames_congr shown] at creates
      obtain ⟨done, rest, advances⟩ := creates.advances
      refine ⟨done, rest, ?_⟩
      rw [List.append_cons]
      refine advances.after ?_
      rw [creations_append, fetches.creations_eq]
      rfl

/-- A run goes on from what was live at its start: what it leaves missing is the rest of what it
found missing. -/
theorem run_advances (request : AliasImport) {listed : List String} (keeps : KeepsAliases world live)
    (publishes : Publishes world listed request.manifestUrl)
    (plain : ∀ name ∈ request.names ++ listed, ¬ HoldsMark name) (state : σ) :
    let ran := request.run.attempt.run world state
    ∃ done rest,
      Advances (missingNames (request.names ++ listed) (listingOf (live state))) done rest
        ran.calls ran.value ∧
      missingNames (request.names ++ listed) (listingOf (live ran.state)) = rest := by
  intro ran
  have runs : Runs request ran.calls ran.value := (run_ensures request).holds world state
  have traverses := run_traverses world request.run.attempt state
  obtain ⟨done, rest, advances⟩ := runs.advances traverses keeps publishes
  refine ⟨done, rest, advances, missingNames_of_grown plain advances.split fun name => ?_⟩
  rw [← advances.granted]
  exact keeps.grown traverses name

/-- The name is desired, and no live alias comes down to it. -/
def IsMissing (desired aliases : List String) (name : String) : Prop :=
  name ∈ desired ∧ name ∉ aliases.map bareName

theorem mem_missingNames_listingOf {name : String} {desired aliases : List String} :
    name ∈ missingNames desired (listingOf aliases) ↔ IsMissing desired aliases name := by
  rw [mem_missingNames, aliases_listingOf, IsMissing]

theorem count_marked {names : List String} (distinct : names.Nodup) {name : String}
    (member : name ∈ names) : (names.map (aliasMark ++ ·)).count (aliasMark ++ name) = 1 := by
  have injective : Function.Injective (aliasMark ++ ·) := fun first second same => by
    simpa using same
  exact List.count_eq_one_of_mem (distinct.map injective) (List.mem_map_of_mem member)

/-- A run that is started over after one that may have failed anywhere, and whose calls succeed,
ends without a failure and creates pairs for missing names only. Over the two runs every name
that was missing at first got its alias by exactly one granted call, and no alias of another name
was asked for. A third run creates nothing. -/
theorem second_run_completes_first (world : World Question Question.Reply σ)
    (live : σ → List String) (keeps : KeepsAliases world live) (names listed : List String)
    (url : Option String) (pace : Nat) (publishes : Publishes world listed (usableUrl url))
    (plain : ∀ name ∈ names ++ listed, ¬ HoldsMark name) (state : σ) :
    let attempt := (of names url pace).run.attempt
    let first := attempt.run world state
    let second := attempt.run world first.state
    let third := attempt.run world second.state
    let Missing := IsMissing (names ++ listed) (live state)
    (∀ answered ∈ second.calls, succeeds answered) →
      (∃ completed : List CompletedName,
        second.value = .ok (completed.map CompletedName.created) ∧
        creations second.calls = completed.flatMap CompletedName.calls ∧
        ∀ complete ∈ completed, Missing complete.name) ∧
      (∀ name, Missing name → aliasMark ++ name ∈ live second.state ∧
        (aliasesGranted (first.calls ++ second.calls)).count (aliasMark ++ name) = 1) ∧
      (∀ text ∈ aliasesSent (first.calls ++ second.calls),
        ∃ name, Missing name ∧ text = aliasMark ++ name) ∧
      creations third.calls = [] := by
  intro attempt first second third Missing success
  have advances (start : σ) : ∃ done rest,
      Advances (missingNames (names ++ listed) (listingOf (live start))) done rest
        (attempt.run world start).calls (attempt.run world start).value ∧
      missingNames (names ++ listed) (listingOf (live (attempt.run world start).state)) = rest :=
    run_advances (of names url pace) keeps publishes plain start
  -- Each run finds missing what the one before it left, so the three go through one list.
  obtain ⟨done, rest, begun, rfl⟩ := advances state
  obtain ⟨others, remaining, resumed, left⟩ := advances first.state
  obtain ⟨_, _, again, -⟩ := advances second.state
  have runs : Runs (of names url pace) second.calls second.value :=
    (run_ensures _).holds world first.state
  obtain ⟨created, ok⟩ := runs.exists_created publishes success
  obtain ⟨rfl, completed, completes, rfl, pairs⟩ := resumed.finished created ok
  have granted : aliasesGranted (first.calls ++ second.calls) = _ := begun.granted_twice resumed
  have grown (start : σ) (name : String) := keeps.grown (run_traverses world attempt start) name
  refine ⟨⟨completed, ok, pairs, fun complete member => ?_⟩, fun name missing => ⟨?_, ?_⟩,
    fun text member => ?_, again.idle left⟩
  · refine mem_missingNames_listingOf.mp (begun.split ▸ List.mem_append_right done ?_)
    exact completes ▸ List.mem_map_of_mem member
  · have created : aliasMark ++ name ∈ aliasesGranted first.calls ∨
        aliasMark ++ name ∈ aliasesGranted second.calls := by
      rw [← List.mem_append, ← aliasesGranted_append, granted]
      exact List.mem_map_of_mem (mem_missingNames_listingOf.mpr missing)
    exact (grown first.state _).mpr (created.imp_left fun earlier => (grown state _).mpr (.inr earlier))
  · rw [granted]
    exact count_marked (missingNames_sorted _ _).nodup (mem_missingNames_listingOf.mpr missing)
  · obtain ⟨name, missing, rfl⟩ := begun.sent_twice resumed member
    exact ⟨name, mem_missingNames_listingOf.mp missing, rfl⟩

/-- What a provider holds that grants or refuses the next creations of aliases as it is told,
and grants all later ones. The newest alias stands first. -/
structure Registry where
  aliases : List String
  grants : List Bool

def Registry.shown (held : Registry) : List String := held.aliases.reverse

/-- The world of such a provider. It gives the same object for every location, and grants
everything else. -/
def registry (object : Bytes) : World Question Question.Reply Registry where
  reply
    | .call (.createAlias _ name), held =>
        if held.grants.headD true then (.ok (), ⟨name :: held.aliases, held.grants.tail⟩)
        else (.error (.transport "reset"), ⟨held.aliases, held.grants.tail⟩)
    | .call .listAliases, held => (.ok (listingOf held.shown), held)
    | .call (.getObject _), held => (.ok ⟨200, object, none, none⟩, held)
    | .call asked, held => (Service.Scripted.reply 1 none asked, held)
    | .host request, held => (stillHost request, held)

theorem registry_keeps (object : Bytes) : KeepsAliases (registry object) Registry.shown where
  listed held listing answer name := by
    cases answer
    rw [aliases_listingOf]
  calls held asked name := by
    cases asked with
    | createAlias keyId other =>
        simp only [registry, Registry.shown]
        split <;> simp [grantedAlias?, or_comm, eq_comm]
    | _ => simp [registry, grantedAlias?]
  host held request name := Iff.rfl

/-- The alias of `c`, which the manifest lists, is refused to the first run after its key was
created. The second run creates that name again and no other. -/
theorem broken_import_taken_up :
    let object := Text.octets "\x7b\"obs_key_aliases\":[\"c\",\"b\"]\x7d"
    let world := registry object
    let held : Registry := ⟨["alias/a"], [true, false]⟩
    let url := some "https://b.obs.r/k"
    let attempt := (of ["b", "a"] url 0).run.attempt
    let first := attempt.run world held
    let second := attempt.run world first.state
    let third := attempt.run world second.state
    let Missing := IsMissing (["b", "a"] ++ ["c", "b"]) held.shown
    (KeepsAliases world Registry.shown ∧ Publishes world ["c", "b"] (usableUrl url) ∧
      (∀ name ∈ ["b", "a"] ++ ["c", "b"], ¬ HoldsMark name) ∧
      ∀ answered ∈ second.calls, succeeds answered) ∧
    first.value = .error (.transport "reset") ∧ second.value = .ok [⟨"c", "new-1"⟩] ∧
    (∀ name, Missing name → aliasMark ++ name ∈ second.state.shown ∧
      (aliasesGranted (first.calls ++ second.calls)).count (aliasMark ++ name) = 1) ∧
    creations third.calls = [] := by
  intro object world held url attempt first second third Missing
  have parsed : ObjectLocation.parse "https://b.obs.r/k" = .ok ⟨"b", "r", "k"⟩ := by
    decide +kernel
  have read : Manifest.parse object = .ok ⟨["c", "b"]⟩ := by decide +kernel
  have publishes : Publishes world ["c", "b"] (usableUrl url) := by
    refine ⟨_, parsed, fun held answer manifest given _ manifestRead => ?_⟩
    cases given
    cases read.symm.trans manifestRead
    rfl
  have plain : ∀ name ∈ ["b", "a"] ++ ["c", "b"], ¬ HoldsMark name := by decide +kernel
  have success : ∀ answered ∈ second.calls, succeeds answered := by decide +kernel
  have law := second_run_completes_first world Registry.shown (registry_keeps object) ["b", "a"]
    ["c", "b"] url 0 publishes plain held success
  exact ⟨⟨registry_keeps object, publishes, plain, success⟩, by decide +kernel,
    by decide +kernel, law.2.1, law.2.2.2⟩

end KeyCustody.AliasImport
