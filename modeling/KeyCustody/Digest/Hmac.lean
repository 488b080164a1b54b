import KeyCustody.Digest.Sha256

namespace KeyCustody.Digest

/-! # Keyed digests -/

def blockSize : Nat := 64

/-- A key of one block: a longer key is digested, a shorter one filled with zeros. -/
def blockKey (key : Bytes) : Bytes :=
  let short := if blockSize < key.length then sha256 key else key
  short ++ List.replicate (blockSize - short.length) 0

/-- The digest of a message under a key. -/
def hmac (key message : Bytes) : Bytes :=
  let inner := (blockKey key).map (· ^^^ 0x36)
  let outer := (blockKey key).map (· ^^^ 0x5C)
  sha256 (outer ++ sha256 (inner ++ message))

end KeyCustody.Digest
