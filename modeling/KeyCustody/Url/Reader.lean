import KeyCustody.Url.Address
import KeyCustody.Url.Basic
import KeyCustody.Url.Domain

namespace KeyCustody.Url

/-! # Reading a URL

A text is cut from its front: the scheme, the authority, the path, the query and the
fragment. Blanks and controls at its ends and tabs and line breaks anywhere are dropped.
Every part is brought into the one form in which it is written. -/

def isControl (c : Char) : Bool := c.toNat < 0x20 || 0x7E < c.toNat

def inFragment (c : Char) : Bool := isControl c || [' ', '"', '<', '>', Char.ofNat 0x60].contains c

def inPath (c : Char) : Bool := inFragment c || ['#', '?', '\x7b', '\x7d'].contains c

def inUser (c : Char) : Bool :=
  inPath c || ['/', ':', ';', '=', '@', '[', '\\', ']', '^', '|'].contains c

def inQuery (special : Bool) (c : Char) : Bool :=
  isControl c || [' ', '"', '#', '<', '>'].contains c || (special && c == '\'')

def escapeOctet (octet : UInt8) : List Char :=
  ['%', Signing.Percent.digit (octet.toNat / 16), Signing.Percent.digit (octet.toNat % 16)]

def escape (isEscaped : Char → Bool) (text : List Char) : List Char :=
  text.flatMap fun c =>
    if isEscaped c then (Text.Utf8.encodeChar c).flatMap escapeOctet else [c]

def isEdge (c : Char) : Bool := c.toNat ≤ 0x20

def isDropped (c : Char) : Bool := c = '\t' || c = '\n' || c = '\r'

/-- The characters that count. -/
def essence (text : List Char) : List Char :=
  (((text.dropWhile isEdge).reverse.dropWhile isEdge).reverse).filter fun c => !isDropped c

def isSchemeChar (c : Char) : Bool := c.isAlphanum || c = '+' || c = '-' || c = '.'

/-- The scheme and what follows its colon. -/
def scheme? (text : List Char) : Option (String × List Char) :=
  match text with
  | [] => none
  | c :: _ =>
      if c.isAlpha then
        match text.dropWhile isSchemeChar with
        | ':' :: rest => some (String.ofList ((text.takeWhile isSchemeChar).map Char.toLower), rest)
        | _ => none
      else none

def isSlash (special : Bool) (c : Char) : Bool := c = '/' || (special && c = '\\')

/-- Whether a character ends the authority. -/
def endsAuthority (special : Bool) (c : Char) : Bool := isSlash special c || c = '?' || c = '#'

/-- Who asks, in written form. An empty password is left out. -/
def userText (text : List Char) : String :=
  let name := text.takeWhile (· ≠ ':')
  let password := (text.dropWhile (· ≠ ':')).drop 1
  if name.isEmpty ∧ password.isEmpty then ""
  else
    String.ofList (escape inUser name) ++
      (if password.isEmpty then "" else ":" ++ String.ofList (escape inUser password)) ++ "@"

/-- The host before its port. A colon within brackets belongs to the host. -/
def hostPart : Bool → List Char → List Char × List Char
  | _, [] => ([], [])
  | bracketed, c :: rest =>
      if c = ':' ∧ ¬bracketed then ([], c :: rest)
      else
        let inside := if c = '[' then true else if c = ']' then false else bracketed
        let (host, after) := hostPart inside rest
        (c :: host, after)

/-- An address in brackets. -/
def bracketed (text : List Char) : Except Fault String :=
  if text.getLast? = some ']' then
    (V6.read text.tail.dropLast).elim (.error .badV6) fun pieces => .ok (V6.text pieces)
  else .error .badV6

/-- The host of a special scheme: an address or a domain name. -/
def specialHost (text : List Char) : Except Fault String :=
  if text.head? = some '[' then bracketed text
  else
    match Domain.read text with
    | none => .error .notDomain
    | some name =>
        if name.isEmpty then .error .noHost
        else if V4.isNumeric name then
          (V4.read name).elim (.error .badV4) fun value => .ok (V4.text value)
        else .ok (String.ofList name)

def isForbiddenInHost (c : Char) : Bool :=
  c.toNat = 0 || [' ', '#', '/', ':', '<', '>', '?', '@', '[', '\\', ']', '^', '|'].contains c

/-- The host of another scheme, which is kept as it is. -/
def otherHost (text : List Char) : Except Fault String :=
  if text.head? = some '[' then bracketed text
  else if text.any isForbiddenInHost then .error .forbiddenCharacter
  else .ok (String.ofList (escape isControl text))

/-- The digits of a port. A port that has none is the usual one. -/
def portOf (scheme : String) (text : List Char) : Except Fault (Option Nat) :=
  if text.all Char.isDigit then
    let port := text.foldl (fun port c => port * 10 + (c.toNat - 48)) 0
    if 65535 < port then .error .badPort
    else if text.isEmpty ∨ usualPort scheme = some port then .ok none
    else .ok (some port)
  else .error .badPort

/-- The text before and after the last sign that ends the part about who asks. -/
def splitUser (text : List Char) : List Char × List Char :=
  (Text.breakAtLast ['@'] text).getD ([], text)

def authorityOf (scheme : String) (text : List Char) : Except Fault Authority := do
  let (user, place) := splitUser text
  let (host, after) := hostPart false place
  let special := isSpecial scheme
  if host.isEmpty ∧ (special ∨ !after.isEmpty ∨ !user.isEmpty) then .error .noHost
  else
    let host ← if special then specialHost host else otherHost host
    let port ← portOf scheme (after.drop 1)
    pure ⟨userText user, host, port⟩

def isHere (segment : List Char) : Bool :=
  let lower := segment.map Char.toLower
  lower = ['.'] || lower = ['%', '2', 'e']

def isParent (segment : List Char) : Bool :=
  let lower := segment.map Char.toLower
  ["..", ".%2e", "%2e.", "%2e%2e"].any fun form => lower = form.toList

/-- The segments between slashes. -/
def segments (special : Bool) (text : List Char) : List (List Char) :=
  Text.fields '/' (text.map fun c => if isSlash special c then '/' else c)

/-- Goes along segments from a place, given backwards, and follows those that mean the same
place or the one above. -/
def walk (place : List (List Char)) : List (List Char) → List (List Char)
  | [] => place.reverse
  | [last] =>
      if isParent last then ([] :: place.tail).reverse
      else if isHere last then ([] :: place).reverse
      else (escape inPath last :: place).reverse
  | segment :: rest =>
      if isParent segment then walk place.tail rest
      else if isHere segment then walk place rest
      else walk (escape inPath segment :: place) rest

/-- The path after its first slash. -/
def pathOf (special : Bool) (text : List Char) : String :=
  "/" ++ String.ofList (Text.joinFields '/' (walk [] (segments special text)))

/-- The path after an authority. A special scheme has a path even where none is written. -/
def pathAfterHost (special : Bool) (text : List Char) : String :=
  match text with
  | [] => if special then "/" else ""
  | c :: rest => pathOf special (if isSlash special c then rest else c :: rest)

/-- A part after its mark, if the mark is there. -/
def partAfter (isEscaped : Char → Bool) : List Char → Option String
  | [] => none
  | _ :: part => some (String.ofList (escape isEscaped part))

/-- Reads the rest of a URL whose path is read by `path`. -/
def withPath (scheme : String) (authority : Option Authority) (path : List Char → String)
    (text : List Char) : Url :=
  let beforeFragment := text.takeWhile (· ≠ '#')
  ⟨scheme, authority, path (beforeFragment.takeWhile (· ≠ '?')),
    partAfter (inQuery (isSpecial scheme)) (beforeFragment.dropWhile (· ≠ '?')),
    partAfter inFragment (text.dropWhile (· ≠ '#'))⟩

/-- Reads a URL after the two slashes of its authority. -/
def readPlace (scheme : String) (text : List Char) : Except Fault Url := do
  let special := isSpecial scheme
  let authority ← authorityOf scheme (text.takeWhile fun c => !endsAuthority special c)
  pure (withPath scheme (some authority) (pathAfterHost special)
    (text.dropWhile fun c => !endsAuthority special c))

/-- The host of a file. The own host is not written. -/
def fileHost (text : List Char) : Except Fault String :=
  if text.isEmpty then .ok ""
  else (specialHost text).map fun host => if host = "localhost" then "" else host

/-- Reads the URL of a file after its colon. Without two slashes the host is the own one. -/
def readFile (text : List Char) : Except Fault Url := do
  let ownHost : Authority := ⟨"", "", none⟩
  match text with
  | first :: second :: rest =>
      if isSlash true first ∧ isSlash true second then
        let host ← fileHost (rest.takeWhile fun c => !endsAuthority true c)
        pure (withPath "file" (some ⟨"", host, none⟩) (pathAfterHost true)
          (rest.dropWhile fun c => !endsAuthority true c))
      else pure (withPath "file" (some ownHost) (pathAfterHost true) text)
  | _ => pure (withPath "file" (some ownHost) (pathAfterHost true) text)

/-- A path that does not start with a slash is no path of segments. -/
def pathOrName (text : List Char) : String :=
  match text with
  | '/' :: rest => pathOf false rest
  | _ => String.ofList (escape isControl text)

/-- Reads a URL. -/
def parse (text : String) : Except Fault Url :=
  match scheme? (essence text.toList) with
  | none => .error .relative
  | some (scheme, rest) =>
      if scheme = "file" then readFile rest
      else if isSpecial scheme then readPlace scheme (rest.dropWhile (isSlash true))
      else
        match rest with
        | '/' :: '/' :: rest => readPlace scheme rest
        | _ => .ok (withPath scheme none pathOrName rest)

end KeyCustody.Url
