import KeyCustody.Key.Record
import KeyCustody.ObjectLocation

namespace KeyCustody.Service

/-! # Calls to the key service and the object store

A call names what is asked, and `Call.Reply` the type of what a successful call gives
back. -/

inductive Switch where
  | on
  | off
  deriving DecidableEq, Repr

/-- Which page of tagged keys to give. Numbers go as decimal text. -/
structure TagQuery where
  action : String
  offset : String
  limit : String
  deriving DecidableEq, Repr

structure TaggedKey where
  id : String
  tags : List Key.Tag
  deriving DecidableEq, Repr

structure TagPage where
  keys : List TaggedKey
  totalCount : Option Nat
  deriving DecidableEq, Repr

/-- The state of a key after it was switched. -/
structure KeyStatus where
  keyId : String
  state : String
  deriving DecidableEq, Repr

structure CreatedKey where
  keyId : String
  domainId : String
  deriving DecidableEq, Repr

structure AliasEntry where
  name : String
  keyId : Option String
  deriving DecidableEq, Repr

/-- The aliases of one group of a listing. -/
structure AliasGroup where
  entries : List AliasEntry
  deriving DecidableEq, Repr

structure AliasListing where
  groups : List AliasGroup
  deriving DecidableEq, Repr

/-- Every alias of a listing, group by group. -/
def AliasListing.aliases (listing : AliasListing) : List String :=
  listing.groups.flatMap fun group => group.entries.map AliasEntry.name

/-- What the object store answered. A refusal is an answer too. -/
structure ObjectAnswer where
  status : Nat
  body : Bytes
  code : Option String
  detail : Option String
  deriving DecidableEq, Repr

/-- The calls. The token of a switching call is fresh for every call. -/
inductive Call where
  | tagPage (query : TagQuery)
  | listKeys (keySpec : String)
  | setRotation (switch : Switch) (keyId token : String)
  | setKey (switch : Switch) (keyId token : String)
  | createKey (name : String)
  | listAliases
  | createAlias (keyId name : String)
  | getObject (location : ObjectLocation)
  deriving DecidableEq, Repr

abbrev Call.Reply : Call → Type
  | .tagPage _ => TagPage
  | .listKeys _ => List Key.Detail
  | .setRotation _ _ _ => Unit
  | .setKey _ _ _ => KeyStatus
  | .createKey _ => CreatedKey
  | .listAliases => AliasListing
  | .createAlias _ _ => Unit
  | .getObject _ => ObjectAnswer

end KeyCustody.Service
