import KeyCustody.Json.Decode
import KeyCustody.Key.State

namespace KeyCustody.Key

/-! # Keys and their tags

The provider lists a key as a `Detail` and its tags apart from it. A `Record` joins the
two. Filters and listings see a record through its JSON form, in which an attribute that
the key does not have is left out. -/

structure Tag where
  key : String
  value : String
  deriving DecidableEq, Repr

/-- A key as the provider lists it. Only the id has to be there. -/
structure Detail where
  keyId : String := ""
  domainId : String := ""
  aliasName : Option String := none
  description : Option String := none
  spec : String := ""
  usage : Option String := none
  state : String := ""
  defaultFlag : String := ""
  keystoreId : String := ""
  rotationEnabled : Option String := none
  origin : Option String := none
  creationDate : Option String := none
  deriving DecidableEq, Repr

structure Record where
  keyId : String
  spec : String
  state : State
  defaultFlag : String
  keystoreId : String
  rotationEnabled : Option String
  domainId : String
  aliasName : Option String
  description : Option String
  usage : Option String
  origin : Option String
  creationDate : Option String
  tags : List Tag
  deriving DecidableEq, Repr

def Record.ofDetail (detail : Detail) (tags : List Tag) : Record where
  keyId := detail.keyId
  spec := detail.spec
  state := State.ofCode detail.state
  defaultFlag := detail.defaultFlag
  keystoreId := detail.keystoreId
  rotationEnabled := detail.rotationEnabled
  domainId := detail.domainId
  aliasName := detail.aliasName
  description := detail.description
  usage := detail.usage
  origin := detail.origin
  creationDate := detail.creationDate
  tags := tags

def Tag.json (tag : Tag) : Json :=
  .object [("key", .text tag.key), ("value", .text tag.value)]

/-- A member for an attribute that is there. -/
def memberOf (name : String) : Option String → List (String × Json)
  | some value => [(name, .text value)]
  | none => []

def Record.json (record : Record) : Json :=
  .object
    ([("id", .text record.keyId), ("key_id", .text record.keyId),
        ("key_spec", .text record.spec), ("key_state", .text record.state.code),
        ("default_key_flag", .text record.defaultFlag),
        ("keystore_id", .text record.keystoreId)] ++
      memberOf "key_rotation_enabled" record.rotationEnabled ++
      [("domain_id", .text record.domainId)] ++
      memberOf "key_alias" record.aliasName ++
      memberOf "key_description" record.description ++
      memberOf "key_usage" record.usage ++
      memberOf "origin" record.origin ++
      memberOf "creation_date" record.creationDate ++
      [("tags", .array (record.tags.map Tag.json))])

open Json (Reader Slot)

def Tag.fields : List (Slot Tag) :=
  [.must "key" Reader.text fun value tag => { tag with key := value },
    .may "value" Reader.text fun value tag => { tag with value := value }]

def Tag.reader : Reader Tag := Reader.record Tag.fields ⟨"", ""⟩

def Detail.fields : List (Slot Detail) :=
  [.must "key_id" Reader.text fun value detail => { detail with keyId := value },
    .may "domain_id" Reader.text fun value detail => { detail with domainId := value },
    .may "key_alias" (Reader.optional Reader.text) fun value detail =>
      { detail with aliasName := value },
    .may "key_description" (Reader.optional Reader.text) fun value detail =>
      { detail with description := value },
    .may "key_spec" Reader.text fun value detail => { detail with spec := value },
    .may "key_usage" (Reader.optional Reader.text) fun value detail =>
      { detail with usage := value },
    .may "key_state" Reader.text fun value detail => { detail with state := value },
    .may "default_key_flag" Reader.text fun value detail =>
      { detail with defaultFlag := value },
    .may "keystore_id" Reader.text fun value detail => { detail with keystoreId := value },
    .may "key_rotation_enabled" (Reader.optional Reader.text) fun value detail =>
      { detail with rotationEnabled := value },
    .may "origin" (Reader.optional Reader.text) fun value detail =>
      { detail with origin := value },
    .may "creation_date" (Reader.optional Reader.text) fun value detail =>
      { detail with creationDate := value }]

def Detail.reader : Reader Detail := Reader.record Detail.fields {}

end KeyCustody.Key
