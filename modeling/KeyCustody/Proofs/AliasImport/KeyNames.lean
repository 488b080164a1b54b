import KeyCustody.Proofs.AliasImport.Protocol
import KeyCustody.Proofs.Text.Integer
import KeyCustody.Service.Scripted
import KeyCustody.Settings

namespace KeyCustody

/-! # Names of new keys

A new key is named after the second in which it is asked for. The wait after each pair keeps the
seconds apart, so a pace of a second or more makes the names of one import all different. -/

variable {world : World Question Question.Reply σ} {clock : σ → Instant} {pace : Nat}

def Ambient.nanoseconds (milliseconds : Nat) : Int := milliseconds * 1000000

/-- What the clock of a world shows in each state. It never goes back, a reading is what it shows
while it is read, and a sleep of the pace takes it on by no less than the pace. -/
structure KeepsTime (world : World Question Question.Reply σ) (clock : σ → Instant)
    (pace : Nat) : Prop where
  forward : ∀ question state, clock state ≤ clock (world.reply question state).2
  reads : ∀ state, clock state ≤ (world.reply (.host .now) state).1 ∧
    (world.reply (.host .now) state).1 ≤ clock (world.reply (.host .now) state).2
  sleeps : ∀ state, clock state + Ambient.nanoseconds pace ≤
    clock (world.reply (.host (.sleep pace)) state).2

theorem KeepsTime.run_forward (keeps : KeepsTime world clock pace) (program : Custody α)
    (state : σ) : clock state ≤ clock (program.run world state).state := by
  induction program generalizing state with
  | done value => exact Int.le_refl _
  | ask question next induction =>
      exact Int.le_trans (keeps.forward question state) (induction _ _)

namespace AliasImport

def keyName? : Service.Call → Option String
  | .createKey name => some name
  | _ => none

/-- The names of the keys that calls ask for. -/
def keyNames (calls : List Answered) : List String :=
  calls.filterMap fun answered => keyName? answered.question

theorem keyNames_append (before after : List Answered) :
    keyNames (before ++ after) = keyNames before ++ keyNames after := List.filterMap_append

theorem Fetches.keyNames_eq {url : Option String} {calls : List Answered}
    {reading : Except Error (List String)} (fetches : Fetches url calls reading) :
    keyNames calls = [] := by
  cases fetches <;> rfl

/-- Names after readings of a clock, each by a gap or more after the one before. -/
inductive Stamped (gap : Int) : Instant → List String → Prop where
  | nil {start : Instant} : Stamped gap start []
  | cons {start instant : Instant} {names : List String} (since : start ≤ instant)
      (later : Stamped gap (instant + gap) names) :
      Stamped gap start (toString instant.seconds :: names)

theorem Stamped.mono {gap : Int} {start later : Instant} {names : List String}
    (stamped : Stamped gap later names) (since : start ≤ later) : Stamped gap start names := by
  cases stamped with
  | nil => exact .nil
  | cons after rest => exact .cons (Int.le_trans since after) rest

theorem seconds_mono {start instant : Instant} (since : start ≤ instant) :
    start.seconds ≤ instant.seconds := Int.ediv_le_ediv (by decide) since

theorem seconds_add_lt {gap : Int} {instant : Instant} (unhurried : 1000000000 ≤ gap) :
    instant.seconds < Instant.seconds (instant + gap) := by
  rw [Instant.seconds, Instant.seconds]
  omega

/-- Instants a second apart lie in different seconds. -/
theorem Stamped.increasing {gap : Int} {start : Instant} {names : List String}
    (stamped : Stamped gap start names) (unhurried : 1000000000 ≤ gap) :
    ∃ seconds : List Int, names = seconds.map toString ∧ seconds.Pairwise (· < ·) ∧
      ∀ second ∈ seconds, start.seconds ≤ second := by
  induction stamped with
  | nil => exact ⟨[], rfl, .nil, nofun⟩
  | @cons start instant names since later induction =>
      obtain ⟨seconds, rfl, increasing, after⟩ := induction
      have beyond : ∀ second ∈ seconds, instant.seconds < second := fun second member =>
        Int.lt_of_lt_of_le (seconds_add_lt unhurried) (after second member)
      refine ⟨instant.seconds :: seconds, rfl, .cons beyond increasing, ?_⟩
      intro second member
      rcases List.mem_cons.mp member with rfl | further
      · exact seconds_mono since
      · exact Int.le_trans (seconds_mono since) (Int.le_of_lt (beyond second further))

/-- Whatever is answered, no key is asked for. -/
def Keyless (errand : Errand α) : Prop := errand.Ensures fun calls _ => keyNames calls = []

/-- From every state on, the names of the keys asked for are stamped, a pace apart. -/
def Stamps (world : World Question Question.Reply σ) (clock : σ → Instant) (pace : Nat)
    (errand : Errand α) : Prop :=
  ∀ state, Stamped (Ambient.nanoseconds pace) (clock state)
    (keyNames (errand.attempt.run world state).calls)

theorem Keyless.stamps {errand : Errand α} (keyless : Keyless errand) :
    Stamps world clock pace errand := by
  intro state
  rw [keyless.holds world state]
  exact .nil

/-- What goes before without asking for a key only takes time. -/
theorem Keyless.stamps_bind (keeps : KeepsTime world clock pace) {first : Errand α}
    {next : α → Errand β} (keyless : Keyless first)
    (stamps : ∀ value, Stamps world clock pace (next value)) :
    Stamps world clock pace (first >>= next) := by
  intro state
  have before : keyNames (first.attempt.run world state).calls = [] := keyless.holds world state
  have passed := keeps.run_forward first.attempt state
  cases result : (first.attempt.run world state).value with
  | error cause =>
      rw [Errand.calls_bind_error result, before]
      exact .nil
  | ok value =>
      rw [Errand.calls_bind_ok result, keyNames_append, before, List.nil_append]
      exact (stamps value _).mono passed

/-- What is made of the value of an errand asks for nothing. -/
theorem Stamps.bind_pure {errand : Errand α} (stamps : Stamps world clock pace errand)
    (f : α → β) : Stamps world clock pace (errand >>= fun value => pure (f value)) := by
  intro state
  cases result : (errand.attempt.run world state).value with
  | error cause =>
      rw [Errand.calls_bind_error result]
      exact stamps state
  | ok value =>
      rw [Errand.calls_bind_ok result]
      change Stamped _ _ (keyNames ((errand.attempt.run world state).calls ++ []))
      rw [List.append_nil]
      exact stamps state

/-- A pair asks for one key, named after the second of a reading. -/
theorem createPair_stamp (keeps : KeepsTime world clock pace) (name : String) (state : σ) :
    let ran := (createPair name).attempt.run world state
    ∃ instant : Instant, clock state ≤ instant ∧ instant ≤ clock ran.state ∧
      keyNames ran.calls = [toString instant.seconds] := by
  intro ran
  have named (instant : Instant) : Errand.Ensures (do
      let key ← Errand.call (.createKey (toString instant.seconds))
      Errand.call (.createAlias key.keyId (aliasMark ++ name))
      Custody.note .aliasCreated
      pure ⟨name, key.keyId⟩) fun calls (_ : Except Error CreatedAlias) =>
        keyNames calls = [toString instant.seconds] := by
    simp only [Errand.ensures_bind, Errand.ensures_lift, Custody.ensures_note, Errand.ensures_pure]
    refine Errand.ensures_call.mpr fun answer => ?_
    cases answer with
    | error cause => rfl
    | ok key =>
        refine Errand.ensures_call.mpr fun answer => ?_
        cases answer <;> rfl
  obtain ⟨since, reached⟩ := keeps.reads state
  exact ⟨_, since, Int.le_trans reached (keeps.run_forward _ _), (named _).holds world _⟩

theorem createAll_stamps (keeps : KeepsTime world clock pace) (waits : pace ≠ 0)
    (names : List String) : Stamps world clock pace (createAll pace names) := by
  induction names with
  | nil => exact Keyless.stamps (by rw [createAll]; rfl)
  | cons name rest induction =>
      intro state
      obtain ⟨instant, since, passed, named⟩ := createPair_stamp keeps name state
      rw [createAll]
      cases result : ((createPair name).attempt.run world state).value with
      | error cause =>
          rw [Errand.calls_bind_error result, named]
          exact .cons since .nil
      | ok created =>
          rw [Errand.calls_bind_ok result, keyNames_append, named]
          refine .cons since ?_
          dsimp only
          rw [if_pos waits]
          have others : Stamps world clock pace (do pure (created :: (← createAll pace rest))) :=
            induction.bind_pure _
          refine (others (world.reply (.host (.sleep pace)) _).2).mono ?_
          exact Int.le_trans (Int.add_le_add_right passed _) (keeps.sleeps _)

/-- An import asks for no key before it creates the missing names. -/
theorem run_stamps (keeps : KeepsTime world clock pace) (waits : pace ≠ 0) (names : List String)
    (url : Option String) : Stamps world clock pace (run ⟨names, url, pace⟩) := by
  rw [run]
  split
  · exact Keyless.stamps fun _ => rfl
  · have fetching : Keyless (manifestNames url) :=
      (manifestNames_ensures url).mono fun _ _ => Fetches.keyNames_eq
    refine fetching.stamps_bind keeps fun listed => ?_
    have listing : Keyless (Errand.call .listAliases) := Errand.ensures_call.mpr fun _ => rfl
    exact listing.stamps_bind keeps fun live => createAll_stamps keeps waits _

theorem keyNames_completed (completed : List CompletedName) :
    keyNames (completed.flatMap CompletedName.calls) = completed.map CompletedName.keyName := by
  induction completed with
  | nil => rfl
  | cons first rest induction =>
      rw [List.flatMap_cons, keyNames_append, induction]
      rfl

/-- An import that does not fail asks for one key for each alias that it creates. -/
theorem Runs.length_keyNames {request : AliasImport} {calls : List Answered}
    {created : List CreatedAlias} (runs : Runs request calls (.ok created)) :
    (keyNames calls).length = created.length := by
  cases runs with
  | idle nothing => rfl
  | diffed asks fetching listed listing creating result fetches creates =>
      cases creates with
      | finished completed names =>
          rw [keyNames_append, fetches.keyNames_eq]
          change (keyNames (completed.flatMap CompletedName.calls)).length = _
          rw [keyNames_completed, List.length_map, List.length_map]

/-- Where an import waits for a second or more after each pair, and the clock does not go back nor
fall short of the waits, the keys that it asks for are named by ever greater numbers, from the time
of its start on and no two of them alike, whatever the provider answers and however long it
takes. -/
theorem key_names_increase (world : World Question Question.Reply σ) (clock : σ → Instant)
    (request : AliasImport) (unhurried : 1000 ≤ request.pace)
    (keeps : KeepsTime world clock request.pace) (state : σ) :
    let ran := request.run.attempt.run world state
    let sent := keyNames ran.calls
    sent.Nodup ∧
    (∃ numbers : List Int, sent = numbers.map toString ∧ numbers.Pairwise (· < ·) ∧
      ∀ number ∈ numbers, (clock state).seconds ≤ number) ∧
    ∀ created, ran.value = .ok created → sent.length = created.length := by
  intro ran sent
  have stamped : Stamped (Ambient.nanoseconds request.pace) (clock state) sent :=
    run_stamps keeps (by omega) request.names request.manifestUrl state
  have second : 1000000000 ≤ Ambient.nanoseconds request.pace := by
    rw [Ambient.nanoseconds]
    omega
  obtain ⟨numbers, texts, increasing, after⟩ := stamped.increasing second
  refine ⟨?_, ⟨numbers, texts, increasing, after⟩, fun created succeeds => ?_⟩
  · rw [texts, List.Nodup, List.pairwise_map]
    exact increasing.imp fun less same => absurd (Text.toString_integer_injective same)
      (Int.ne_of_lt less)
  · have runs : Runs request ran.calls ran.value := (run_ensures request).holds world state
    rw [succeeds] at runs
    exact runs.length_keyNames

/-- The world of a provider that grants everything and takes a time for each call. -/
def tardyWorld (duration : Nat) : World Question Question.Reply Instant where
  reply
    | .call asked, clock => (Service.Scripted.reply 0 none asked, clock + duration)
    | .host .now, clock => (clock, clock)
    | .host (.sleep milliseconds), clock => ((), clock + Ambient.nanoseconds milliseconds)
    | .host request, clock => (stillHost request, clock)

theorem tardyWorld_keepsTime (duration pace : Nat) :
    KeepsTime (tardyWorld duration) id pace where
  forward question clock := by
    cases question with
    | call asked => exact Int.le_add_of_nonneg_right (Int.natCast_nonneg duration)
    | host request =>
        cases request with
        | sleep milliseconds =>
            exact Int.le_add_of_nonneg_right (Int.mul_nonneg (Int.natCast_nonneg _) (by decide))
        | _ => exact Int.le_refl clock
  reads clock := ⟨Int.le_refl clock, Int.le_refl clock⟩
  sleeps clock := Int.le_refl _

/-- Three keys at the default pace, where each call takes three tenths of a second and the import
starts right before a second is over. -/
theorem late_start_names_differ :
    let request := ImportSettings.request { names := ["b", "a", "c"] }
    let ran := request.run.attempt.run (tardyWorld 300000000) (1699999999999999999 : Int)
    (1000 ≤ request.pace ∧ KeepsTime (tardyWorld 300000000) id request.pace) ∧
    keyNames ran.calls = ["1700000000", "1700000001", "1700000003"] ∧
    (keyNames ran.calls).Nodup := by
  intro request ran
  have keeps := tardyWorld_keepsTime 300000000 request.pace
  have increase := key_names_increase (tardyWorld 300000000) id request (by decide) keeps
    (1699999999999999999 : Int)
  exact ⟨⟨by decide, keeps⟩, by decide +kernel, increase.1⟩

end AliasImport

end KeyCustody
