import KeyCustody.Error
import KeyCustody.Host
import KeyCustody.Text.Escaped

namespace KeyCustody.Signing

/-! # Credentials

The pair of keys that requests are signed under. It comes from the host's variables only,
and the secret key is never shown. -/

structure Credentials where
  accessKey : String
  secretKey : String
  deriving DecidableEq, Repr

namespace Credentials

def accessKeyName : String := "HUAWEI_ACCESS_KEY_ID"

def secretKeyName : String := "HUAWEI_SECRET_ACCESS_KEY"

/-- A variable without which there are no credentials. -/
def require (host : Host) (name : String) : Except Error String :=
  (host.setting? name).elim (.error (.settings (.missingField name))) .ok

/-- The credentials in a host's variables. -/
def ofHost (host : Host) : Except Error Credentials := do
  let accessKey ← require host accessKeyName
  let secretKey ← require host secretKeyName
  pure ⟨accessKey, secretKey⟩

/-- The credentials for people. -/
def text (credentials : Credentials) : String :=
  "Credentials \x7b access_key: " ++ Text.Escaped.quote credentials.accessKey ++
    ", secret_key: \"<redacted>\" \x7d"

end Credentials

end KeyCustody.Signing
