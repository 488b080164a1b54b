import KeyCustody.Custody
import KeyCustody.Manifest
import KeyCustody.Text.Split

namespace KeyCustody

/-! # Alias import

The desired names come from a list and from a manifest. Each name that is not live gets a
new key, named after the time, and an alias for it, in the order of the names. The first
failure ends the import, and what was created before it stays. -/

structure AliasImport where
  names : List String
  manifestUrl : Option String
  /-- Milliseconds to wait after each created pair. -/
  pace : Nat
  deriving DecidableEq, Repr

/-- A key that was created and the name that it goes by. -/
structure CreatedAlias where
  name : String
  keyId : String
  deriving DecidableEq, Repr

def CreatedAlias.json (created : CreatedAlias) : Json :=
  .object [("alias", .text created.name), ("key_id", .text created.keyId)]

namespace AliasImport

/-- An empty URL counts as none. -/
def usableUrl (url : Option String) : Option String := url.filter fun url => url != ""

def of (names : List String) (manifestUrl : Option String) (pace : Nat) : AliasImport :=
  ⟨names, usableUrl manifestUrl, pace⟩

/-- Puts a name into its place among sorted names, once. -/
def insertName (name : String) : List String → List String
  | [] => [name]
  | other :: rest =>
      if name < other then name :: other :: rest
      else if name = other then other :: rest
      else other :: insertName name rest

/-- The names in order, each once. -/
def nameSet (names : List String) : List String := names.foldr insertName []

/-- What an alias starts with at the provider. -/
def aliasMark : String := "alias/"

/-- An alias without the mark, wherever it stands. -/
def bareName (name : String) : String :=
  String.ofList (Text.replaceAll aliasMark.toList [] name.toList)

/-- The status from which on an answer of the object store is a refusal. -/
def refusalStatus : Nat := 300

/-- Fetches and reads the manifest at a URL. -/
def fetchManifest (url : String) : Errand Manifest := do
  let location ← ObjectLocation.parse url
  let answer ← (Errand.call (.getObject location)).noting .manifestUnavailable
  if refusalStatus ≤ answer.status then
    Custody.note .manifestUnavailable
    throw (.manifest (.refused answer.status (answer.code.getD "") (answer.detail.getD "")))
  else Manifest.parse answer.body

/-- The names of the manifest, or none without one. -/
def manifestNames : Option String → Errand (List String)
  | none => pure []
  | some url => do pure (← fetchManifest url).names

/-- Creates a key and an alias for it. -/
def createPair (name : String) : Errand CreatedAlias := do
  let instant ← Custody.now
  let key ← Errand.call (.createKey (toString instant.seconds))
  Errand.call (.createAlias key.keyId (aliasMark ++ name))
  Custody.note .aliasCreated
  pure ⟨name, key.keyId⟩

def createAll (pace : Nat) : List String → Errand (List CreatedAlias)
  | [] => pure []
  | name :: rest => do
      let created ← createPair name
      if pace ≠ 0 then Custody.sleep pace
      pure (created :: (← createAll pace rest))

/-- Creates every desired name that is not live. Without a list and a manifest nothing is
asked of the provider. -/
def run (request : AliasImport) : Errand (List CreatedAlias) := do
  if request.names.isEmpty ∧ request.manifestUrl.isNone then
    Custody.note .nothingToImport
    pure []
  else
    let listed ← manifestNames request.manifestUrl
    let live := (← Errand.call .listAliases).aliases.map bareName
    let missing := (nameSet (request.names ++ listed)).filter fun name => !live.contains name
    createAll request.pace missing

end AliasImport

end KeyCustody
