import KeyCustody.Text.Split

namespace KeyCustody

/-! # URLs

An address in parts, each part in the form in which it is written. -/

/-- The part between the two slashes and the path. -/
structure Url.Authority where
  /-- Who asks, with the sign that ends it. -/
  user : String
  host : String
  /-- The port, if it is not the usual one of the scheme. -/
  port : Option Nat
  deriving DecidableEq, Repr

structure Url where
  scheme : String
  authority : Option Url.Authority
  path : String
  query : Option String
  fragment : Option String
  deriving DecidableEq, Repr

/-- Why a text is no URL. -/
inductive Url.Fault where
  | relative
  | noHost
  | notDomain
  | forbiddenCharacter
  | badPort
  | badV4
  | badV6
  deriving DecidableEq, Repr

namespace Url

def Fault.message : Fault → String
  | .relative => "relative URL without a base"
  | .noHost => "empty host"
  | .notDomain => "invalid international domain name"
  | .forbiddenCharacter => "invalid domain character"
  | .badPort => "invalid port number"
  | .badV4 => "invalid IPv4 address"
  | .badV6 => "invalid IPv6 address"

/-- The usual port of a scheme. -/
def usualPort (scheme : String) : Option Nat :=
  if scheme = "http" ∨ scheme = "ws" then some 80
  else if scheme = "https" ∨ scheme = "wss" then some 443
  else if scheme = "ftp" then some 21
  else none

/-- Schemes whose URLs always have a host and a path. -/
def isSpecial (scheme : String) : Bool := (usualPort scheme).isSome

/-- The host, if there is one. -/
def host? (url : Url) : Option String :=
  (url.authority.map Authority.host).filter fun host => host != ""

def portText (port : Option Nat) : String :=
  match port with
  | some port => ":" ++ toString port
  | none => ""

def Authority.text (authority : Authority) : String :=
  authority.user ++ authority.host ++ portText authority.port

/-- The host with a port that is not the usual one. -/
def hostAndPort? (url : Url) : Option String := do
  let host ← url.host?
  pure (host ++ portText (url.authority.bind Authority.port))

/-- A part with the sign in front of it, if it is there. -/
def marked (mark : String) : Option String → String
  | some part => mark ++ part
  | none => ""

/-- What a request asks its host for. -/
def target (url : Url) : String := url.path ++ marked "?" url.query

/-- The URL as text. A path that starts with two slashes is kept apart from the scheme. -/
def text (url : Url) : String :=
  url.scheme ++ ":" ++
    (match url.authority with
      | some authority => "//" ++ authority.text
      | none => if url.path.startsWith "//" then "/." else "") ++
    url.path ++ marked "?" url.query ++ marked "#" url.fragment

end Url

end KeyCustody
