import KeyCustody.Digest.Hmac
import KeyCustody.Signing.CanonicalRequest
import KeyCustody.Signing.Credentials

namespace KeyCustody.Signing

/-! # Signatures

A request is signed under a pair of keys: the digest of its canonical form and the date
are digested under the secret key. -/

def algorithm : String := "SDK-HMAC-SHA256"

def textToSign (date canonical : String) : String :=
  algorithm ++ "\n" ++ date ++ "\n" ++ Digest.sha256Hex (Text.octets canonical)

/-- What a signed request carries to prove who sent it. -/
structure Authorization where
  access : String
  signedHeaders : String
  signature : String
  deriving DecidableEq, Repr

def Authorization.text (authorization : Authorization) : String :=
  algorithm ++ " Access=" ++ authorization.access ++ ", SignedHeaders=" ++
    authorization.signedHeaders ++ ", Signature=" ++ authorization.signature

def sign (credentials : Credentials) (method path : String) (headers : List Header)
    (body : Bytes) (date : String) : Authorization :=
  let toSign := textToSign date (canonicalRequest method path headers body)
  ⟨credentials.accessKey, signedNames headers,
    Text.Hex.encode (Digest.hmac (Text.octets credentials.secretKey) (Text.octets toSign))⟩

end KeyCustody.Signing
