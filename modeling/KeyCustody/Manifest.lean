import KeyCustody.Error
import KeyCustody.Json.Decode

namespace KeyCustody

/-! # Manifests

A manifest lists further alias names. The list has to be there: a document without it is
refused and never read as an empty list. -/

structure Manifest where
  names : List String
  deriving DecidableEq, Repr

namespace Manifest

open Json (Reader Slot)

def fields : List (Slot Manifest) :=
  [.must "obs_key_aliases" (Reader.list Reader.text) fun names _ => ⟨names⟩]

def reader : Reader Manifest := Reader.record fields ⟨[]⟩

/-- Reads the body of a manifest. -/
def parse (body : Bytes) : Except Error Manifest :=
  (reader.run body).mapError fun fault => .manifest (.unreadable fault)

end Manifest

end KeyCustody
