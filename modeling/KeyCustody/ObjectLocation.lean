import KeyCustody.Error
import KeyCustody.Text.Split

namespace KeyCustody

/-! # Object locations

An object is named by a URL `https://<bucket>.obs.<server>/<key>`. The bucket ends at the
last `.obs` of the host, so a bucket may hold that text itself. -/

structure ObjectLocation where
  bucket : String
  server : String
  objectKey : String
  deriving DecidableEq, Repr

namespace ObjectLocation

def scheme : List Char := "https://".toList

def marker : List Char := ".obs".toList

/-- The server after the marker, without the dot that parts the two. -/
def serverOf : List Char → List Char
  | '.' :: server => server
  | server => server

/-- Reads the parts of a URL, or says what is wrong with it. -/
def parseParts (url : List Char) : Except String ObjectLocation :=
  match scheme.isPrefixOf? url with
  | none => .error "expected an https:// url"
  | some address =>
      let host := address.takeWhile (· ≠ '/')
      match Text.breakAtLast marker host with
      | none => .error "no .obs endpoint in host"
      | some (bucket, server) =>
          if bucket.isEmpty then .error "empty bucket name"
          else
            match address.dropWhile (· ≠ '/') with
            | [] => .error "no object path after host"
            | _ :: key =>
                if key.isEmpty then .error "empty object path"
                else if (serverOf server).isEmpty then .error "empty region host"
                else
                  .ok ⟨String.ofList bucket, String.ofList (serverOf server),
                    String.ofList key⟩

/-- Reads a URL. -/
def parse (url : String) : Except Error ObjectLocation :=
  (parseParts url.toList).mapError fun reason => .manifest (.malformedUrl url reason)

/-- The first label of the server. Requests are signed for this region. -/
def region (location : ObjectLocation) : String :=
  String.ofList (location.server.toList.takeWhile (· ≠ '.'))

/-- The host that serves the object. -/
def endpoint (location : ObjectLocation) : String := "obs." ++ location.server

/-- The URL of an object in its bucket's own host. -/
def url (location : ObjectLocation) : String :=
  "https://" ++ location.bucket ++ "." ++ location.endpoint ++ "/" ++ location.objectKey

/-- The location for people. -/
def text (location : ObjectLocation) : String :=
  "obs://" ++ location.bucket ++ "/" ++ location.objectKey

end ObjectLocation

end KeyCustody
