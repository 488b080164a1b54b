import KeyCustody.Digest.Sha256
import KeyCustody.Signing.Percent
import KeyCustody.Text.Blank

namespace KeyCustody.Signing

/-! # Canonical requests

The text that stands for a request when it is signed: method, path, an empty query, the
headers by lowercase name, the list of their names, and the digest of the body. -/

structure Header where
  name : String
  value : String
  deriving DecidableEq, Repr

/-- A header with its name in lowercase and its value without outer blanks. -/
def Header.normal (header : Header) : Header :=
  ⟨String.ofList (header.name.toList.map Char.toLower),
    String.ofList (Text.trim header.value.toList)⟩

/-- Normal headers sorted by name; those of one name keep their order. -/
def normalHeaders (headers : List Header) : List Header :=
  (headers.map Header.normal).mergeSort fun first second => first.name ≤ second.name

def Header.line (header : Header) : String := header.name ++ ":" ++ header.value ++ "\n"

/-- The names of the signed headers. -/
def signedNames (headers : List Header) : String :=
  Text.joinWith ";" ((normalHeaders headers).map Header.name)

/-- The encoded path with a slash at its end. -/
def canonicalPath (path : String) : String :=
  let encoded := Percent.encodePath path.toList
  String.ofList (if encoded.getLast? = some '/' then encoded else encoded ++ ['/'])

def canonicalRequest (method path : String) (headers : List Header) (body : Bytes) : String :=
  method ++ "\n" ++ canonicalPath path ++ "\n\n" ++
    String.join ((normalHeaders headers).map Header.line) ++ "\n" ++
    signedNames headers ++ "\n" ++ Digest.sha256Hex body

end KeyCustody.Signing
