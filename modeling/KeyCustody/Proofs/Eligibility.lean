import KeyCustody.Proofs.Remediation

namespace KeyCustody

/-! # Eligibility for rotation

The record of a key alone settles whether its rotation is switched. One that passes all four checks
gets the one call there is; any other is skipped for the first check that it fails, and nobody is
asked. -/

namespace Key.State

/-- The provider's code for the state is among these. A state that no code gives, such as an unknown
one with the code of a known one, stands for none. -/
def StandsFor (state : State) (codes : List String) : Prop := ∃ code ∈ codes, state = .ofCode code

theorem ofCode_inj {code other : String} (same : ofCode code = ofCode other) : code = other := by
  rw [← code_ofCode code, same, code_ofCode]

theorem standsFor_ofCode_iff {code : String} {codes : List String} :
    (ofCode code).StandsFor codes ↔ code ∈ codes := by
  constructor
  · intro ⟨other, listed, same⟩
    rwa [ofCode_inj same]
  · intro listed
    exact ⟨code, listed, rfl⟩

end Key.State

namespace Rotation

open Service (Switch)

variable {switch : Switch} {record : Key.Record} {reason : String}

/-- The specs of the keys whose rotation can be switched: two for turning it on, all but nine for
turning it off. -/
def Turns : Switch → String → Prop
  | .on, spec => spec ∈ ["AES_256", "SM4"]
  | .off, spec => spec ∉ ["RSA_2048", "RSA_3072", "RSA_4096", "EC_P256", "EC_P384", "SM2",
      "ML_DSA_44", "ML_DSA_65", "ML_DSA_87"]

def codes : Switch → List String
  | .on => ["2"]
  | .off => ["2", "3", "4"]

structure Eligible (switch : Switch) (record : Key.Record) : Prop where
  own : record.defaultFlag = "0"
  home : record.keystoreId = "0"
  turns : Turns switch record.spec
  ready : record.state.StandsFor (codes switch)

/-- The first check that a record fails, with what is said of it. -/
inductive Obstacle (switch : Switch) (record : Key.Record) : String → Prop where
  | flag (shared : record.defaultFlag ≠ "0") : Obstacle switch record "default or shared key"
  | keystore (own : record.defaultFlag = "0") (foreign : record.keystoreId ≠ "0") :
      Obstacle switch record ("key lives in keystore " ++ record.keystoreId)
  | spec (own : record.defaultFlag = "0") (home : record.keystoreId = "0")
      (fixed : ¬ Turns switch record.spec) :
      Obstacle switch record ("key spec " ++ record.spec ++ " does not rotate")
  | state (own : record.defaultFlag = "0") (home : record.keystoreId = "0")
      (turns : Turns switch record.spec) (unready : ¬ record.state.StandsFor (codes switch)) :
      Obstacle switch record ("key is " ++ record.state.text)

theorem Obstacle.not_eligible (obstacle : Obstacle switch record reason) :
    ¬ Eligible switch record := by
  intro eligible
  cases obstacle with
  | flag shared => exact shared eligible.own
  | keystore own foreign => exact foreign eligible.home
  | spec own home fixed => exact fixed eligible.turns
  | state own home turns unready => exact unready eligible.ready

/-- What a reason, or none, says of a record. -/
inductive Verdict (switch : Switch) (record : Key.Record) : Option String → Prop where
  | eligible (eligible : Eligible switch record) : Verdict switch record none
  | obstacle {reason : String} (obstacle : Obstacle switch record reason) :
      Verdict switch record (some reason)

/-- The four checks decide eligibility, each after those before it are passed. -/
theorem verdict_of_checks {fixed unready : Bool}
    (fixedIff : fixed = true ↔ ¬ Turns switch record.spec)
    (unreadyIff : unready = true ↔ ¬ record.state.StandsFor (codes switch)) :
    Verdict switch record (firstReason (custodyChecks record ++
      [(fixed, "key spec " ++ record.spec ++ " does not rotate"),
        (unready, "key is " ++ record.state.text)])) := by
  simp only [custodyChecks, List.cons_append, List.nil_append, firstReason, bne_iff_ne]
  split
  · rename_i shared
    exact .obstacle (.flag shared)
  · rename_i own
    rw [not_not] at own
    split
    · rename_i foreign
      exact .obstacle (.keystore own foreign)
    · rename_i home
      rw [not_not] at home
      split
      · rename_i refused
        exact .obstacle (.spec own home (fixedIff.mp refused))
      · rename_i passed
        have turns := not_not.mp (mt fixedIff.mpr passed)
        split
        · rename_i refused
          exact .obstacle (.state own home turns (unreadyIff.mp refused))
        · rename_i passed
          exact .eligible ⟨own, home, turns, not_not.mp (mt unreadyIff.mpr passed)⟩

theorem enabled_standsFor_iff {state : Key.State} :
    state.StandsFor (codes .on) ↔ state = .enabled := by
  simp [Key.State.StandsFor, codes, Key.State.ofCode]

theorem standing_standsFor_iff {state : Key.State} :
    state.StandsFor (codes .off) ↔ state ∈ [.enabled, .disabled, .pendingDeletion] := by
  simp [Key.State.StandsFor, codes, Key.State.ofCode]

def action : Switch → Action
  | .on => .enableRotation
  | .off => .disableRotation

theorem verdict_refusal (switch : Switch) (record : Key.Record) :
    Verdict switch record ((action switch).refusal record) := by
  cases switch with
  | on => exact verdict_of_checks (by simp [Turns, rotatableSpecs]) (by simp [enabled_standsFor_iff])
  | off =>
      have fixed : fixedSpecs.contains record.spec ↔ ¬ Turns .off record.spec := by
        rw [Turns, not_not]
        exact List.contains_iff_mem
      exact verdict_of_checks fixed (by simp [standing_standsFor_iff])

theorem refusal_eq_none_iff : (action switch).refusal record = none ↔ Eligible switch record := by
  have verdict := verdict_refusal switch record
  generalize (action switch).refusal record = refusal at verdict ⊢
  cases verdict with
  | eligible eligible => simp [eligible]
  | obstacle obstacle => simp [obstacle.not_eligible]

theorem Obstacle.unique {other : String} (obstacle : Obstacle switch record reason)
    (same : Obstacle switch record other) : reason = other := by
  cases obstacle <;> cases same <;> first | rfl | contradiction

theorem refusal_eq_some_iff :
    (action switch).refusal record = some reason ↔ Obstacle switch record reason := by
  have verdict := verdict_refusal switch record
  generalize (action switch).refusal record = refusal at verdict ⊢
  cases verdict with
  | eligible eligible =>
      simpa using fun obstacle : Obstacle switch record reason => obstacle.not_eligible eligible
  | obstacle obstacle =>
      rw [Option.some.injEq]
      exact ⟨fun same => same ▸ obstacle, obstacle.unique⟩

example :
    (action .off).refusal (.ofDetail { spec := "SM2", defaultFlag := "0", keystoreId := "7" } []) =
      some "key lives in keystore 7" := rfl

/-- Turns rotation of a key on or off. A failure that is handed on is the result. -/
def turn : Switch → Key.Record → Custody (Except Error Outcome)
  | .on, record => Except.ok <$> enable record
  | .off, record => (disable record).attempt

theorem turn_settles (switch : Switch) (record : Key.Record) :
    (turn switch record).Ensures fun calls result =>
      Action.Settles (action switch) record calls (result.map Applied.of) := by
  cases switch with
  | on =>
      rw [turn, Custody.ensures_map]
      exact Action.enable_settles record
  | off => exact Action.disable_settles record

/-- What a run of it comes to: one call for an eligible record, a skip without a call for any
other. -/
inductive Turned (switch : Switch) (record : Key.Record) :
    List Answered → Except Error Outcome → Prop where
  | asked {result : Except Error Outcome} (eligible : Eligible switch record) (token : String)
      (answer : Except Error Unit) (other : ∀ reason, result ≠ .ok (.skipped (.ineligible reason))) :
      Turned switch record [⟨.setRotation switch record.keyId token, answer⟩] result
  | skipped {reason : String} (obstacle : Obstacle switch record reason) :
      Turned switch record [] (.ok (.skipped (.ineligible reason)))

theorem Turned.of_asked {token : String} {result : Except Error Outcome}
    (accepts : (action switch).refusal record = none)
    (answer : Except Error ((action switch).call record.keyId token).Reply)
    (other : ∀ reason, result ≠ .ok (.skipped (.ineligible reason))) :
    Turned switch record [⟨(action switch).call record.keyId token, answer⟩] result := by
  have eligible := refusal_eq_none_iff.mp accepts
  cases switch with
  | on => exact .asked eligible token answer other
  | off => exact .asked eligible token answer other

theorem Turned.of_settles {calls : List Answered} {result : Except Error Outcome}
    (settles : (action switch).Settles record calls (result.map Applied.of)) :
    Turned switch record calls result := by
  generalize seen : result.map Applied.of = last at settles
  -- An answered call comes to something else than a skip of a key that does not qualify.
  have other (differs : ∀ reason, last ≠ .ok (.of (.skipped (.ineligible reason)))) :
      ∀ reason, result ≠ .ok (.skipped (.ineligible reason)) := by
    intro reason same
    exact differs reason (by rw [← seen, same]; rfl)
  cases settles with
  | refused reason refuses =>
      cases result with
      | ok outcome =>
          cases seen
          exact .skipped (refusal_eq_some_iff.mp refuses)
      | error cause => cases seen
  | done accepts token reply =>
      exact .of_asked accepts (.ok reply) (other fun reason same => by cases switch <;> cases same)
  | unchanged accepts turnsOn token cause bad =>
      exact .of_asked accepts (.error (.provider cause)) (other fun reason same => by cases same)
  | failed accepts token cause refused =>
      exact .of_asked accepts (.error cause) (other fun reason same => by
        cases switch <;> cases same)

section

variable {calls : List Answered} {result : Except Error Outcome}

theorem Turned.asked_iff (turned : Turned switch record calls result) :
    (∃ token answer, calls = [⟨.setRotation switch record.keyId token, answer⟩]) ↔
      Eligible switch record := by
  cases turned with
  | asked eligible token answer other => simp [eligible]
  | skipped obstacle => simp [obstacle.not_eligible]

theorem Turned.silent_iff (turned : Turned switch record calls result) :
    calls = [] ↔ ∃ reason, Obstacle switch record reason := by
  cases turned with
  | asked eligible token answer other =>
      simpa using fun reason (obstacle : Obstacle switch record reason) =>
        obstacle.not_eligible eligible
  | skipped obstacle => simpa using ⟨_, obstacle⟩

theorem Turned.skipped_iff (turned : Turned switch record calls result) :
    result = .ok (.skipped (.ineligible reason)) ↔ Obstacle switch record reason := by
  cases turned with
  | asked eligible token answer other =>
      have clear : ¬ Obstacle switch record reason := fun obstacle =>
        obstacle.not_eligible eligible
      simp [other reason, clear]
  | skipped obstacle =>
      constructor
      · intro same
        cases same
        exact obstacle
      · intro first
        rw [obstacle.unique first]

end

theorem turn_ensures (switch : Switch) (record : Key.Record) :
    (turn switch record).Ensures (Turned switch record) :=
  (turn_settles switch record).mono fun _ _ => Turned.of_settles

theorem Eligible.turns_off (eligible : Eligible .on record) : Turns .off record.spec := by
  have listed := eligible.turns
  simp only [Turns, List.mem_cons, List.not_mem_nil, or_false] at listed
  obtain aes | sm4 := listed
  · simp [Turns, aes]
  · simp [Turns, sm4]

theorem Eligible.off {code : String} (eligible : Eligible .on record) (listed : code ∈ codes .off) :
    Eligible .off { record with state := .ofCode code } where
  own := eligible.own
  home := eligible.home
  turns := eligible.turns_off
  ready := Key.State.standsFor_ofCode_iff.mpr listed

theorem Eligible.off_same (eligible : Eligible .on record) : Eligible .off record := by
  have enabled : record.state = .ofCode "2" := enabled_standsFor_iff.mp eligible.ready
  have turned : Eligible .off { record with state := .ofCode "2" } := eligible.off (by decide)
  rwa [← enabled] at turned

/-- In every world, rotation of a key is asked for exactly if its record is eligible, and the run
ends in a skip for a reason exactly if that is the first obstacle of the record. A key that is
eligible for turning rotation on stays eligible for turning it off while it is enabled, disabled or
waiting for its deletion. -/
theorem turned_exactly_if_eligible (switch : Switch) (record : Key.Record)
    (world : World Question Question.Reply σ) (state : σ) :
    let ran := (turn switch record).run world state
    ((∃ token answer, ran.calls = [⟨.setRotation switch record.keyId token, answer⟩]) ↔
      Eligible switch record) ∧
    (ran.calls = [] ↔ ∃ reason, Obstacle switch record reason) ∧
    (∀ reason, ran.value = .ok (.skipped (.ineligible reason)) ↔ Obstacle switch record reason) ∧
    (∀ code, record.state = .ofCode code →
      (record.state.StandsFor (codes switch) ↔ code ∈ codes switch)) ∧
    (Eligible .on record → Eligible .off record ∧
      ∀ code ∈ ["2", "3", "4"], Eligible .off { record with state := .ofCode code }) := by
  intro ran
  have turned : Turned switch record ran.calls ran.value :=
    (turn_ensures switch record).holds world state
  refine ⟨turned.asked_iff, turned.silent_iff, fun reason => turned.skipped_iff, fun code same => ?_,
    fun eligible => ⟨eligible.off_same, fun code listed => eligible.off listed⟩⟩
  rw [same, Key.State.standsFor_ofCode_iff]

end Rotation

end KeyCustody
