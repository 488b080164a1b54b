import KeyCustody.Custody
import KeyCustody.Outcome

namespace KeyCustody.Rotation

/-! # Rotation

A key qualifies when it is neither a default nor a shared key, lives in the default
keystore, has a spec that rotates, and is in a fitting state. The checks are made in this
order and the first that fails gives the reason. Specs that rotate are listed for turning
rotation on; specs that never rotate are listed for turning it off.

Turning rotation on never fails: a refusal as a bad request means that there is nothing
to do, and any other failure is the outcome. Turning it off hands every failure on. -/

open Service (Switch)

def rotatableSpecs : List String := ["AES_256", "SM4"]

def fixedSpecs : List String :=
  ["RSA_2048", "RSA_3072", "RSA_4096", "EC_P256", "EC_P384", "SM2", "ML_DSA_44", "ML_DSA_65",
    "ML_DSA_87"]

/-- The first reason that applies. -/
def firstReason : List (Bool × String) → Option String
  | [] => none
  | (applies, reason) :: rest => if applies then some reason else firstReason rest

/-- Why a key is not in the operator's own hands. -/
def custodyChecks (record : Key.Record) : List (Bool × String) :=
  [(record.defaultFlag != "0", "default or shared key"),
    (record.keystoreId != "0", "key lives in keystore " ++ record.keystoreId)]

/-- Why rotation of a key cannot be turned on, if it cannot. -/
def enableIneligibility (record : Key.Record) : Option String :=
  firstReason
    (custodyChecks record ++
      [(!rotatableSpecs.contains record.spec, "key spec " ++ record.spec ++ " does not rotate"),
        (record.state != .enabled, "key is " ++ record.state.text)])

/-- Why rotation of a key cannot be turned off, if it cannot. -/
def disableIneligibility (record : Key.Record) : Option String :=
  firstReason
    (custodyChecks record ++
      [(fixedSpecs.contains record.spec, "key spec " ++ record.spec ++ " does not rotate"),
        (!([Key.State.enabled, .disabled, .pendingDeletion].contains record.state),
          "key is " ++ record.state.text)])

/-- Turns rotation of a key on. -/
def enable (record : Key.Record) : Custody Outcome := do
  match enableIneligibility record with
  | some reason =>
      Custody.note (.skipped .enableRotation)
      pure (.skipped (.ineligible reason))
  | none =>
      let token ← Custody.token
      match ← Custody.call (.setRotation .on record.keyId token) with
      | .ok () =>
          Custody.note (.succeeded .enableRotation)
          pure .done
      | .error (.provider cause) =>
          if cause.isBadRequest then
            Custody.note .rotationUnchanged
            pure (.skipped (.alreadyApplied cause.detail))
          else
            Custody.note (.failed .enableRotation)
            pure (.failed cause.message)
      | .error cause =>
          Custody.note (.failed .enableRotation)
          pure (.failed cause.message)

/-- Turns rotation of a key off. -/
def disable (record : Key.Record) : Errand Outcome := do
  match disableIneligibility record with
  | some reason =>
      Custody.note (.skipped .disableRotation)
      pure (.skipped (.ineligible reason))
  | none =>
      let token ← Custody.token
      Errand.call (.setRotation .off record.keyId token)
      Custody.note (.succeeded .disableRotation)
      pure .done

end KeyCustody.Rotation
