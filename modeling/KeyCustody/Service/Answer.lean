import KeyCustody.Service.Call

namespace KeyCustody.Service

/-! # Answers of the key service

The JSON that each call is answered with. -/

open Json (Reader Slot Fault)

def TaggedKey.fields : List (Slot TaggedKey) :=
  [.must "resource_id" Reader.text fun value key => { key with id := value },
    .may "tags" (Reader.list Key.Tag.reader) fun value key => { key with tags := value }]

def TagPage.fields : List (Slot TagPage) :=
  [.may "resources" (Reader.list (Reader.record TaggedKey.fields ⟨"", []⟩)) fun value page =>
      { page with keys := value },
    .may "total_count" (Reader.optional Reader.natural) fun value page =>
      { page with totalCount := value }]

def TagPage.reader : Reader TagPage := Reader.record TagPage.fields ⟨[], none⟩

/-- A listing of keys. If one key of it cannot be read, the listing cannot. -/
def keyListingReader : Reader (List Key.Detail) :=
  Reader.record
    [.may "key_details" (Reader.list Key.Detail.reader) fun value _ => value] []

def KeyStatus.fields : List (Slot KeyStatus) :=
  [.must "key_id" Reader.text fun value status => { status with keyId := value },
    .may "key_state" Reader.text fun value status => { status with state := value }]

/-- The status of a switched key, or an empty one where the answer holds none. -/
def keyStatusReader : Reader KeyStatus :=
  Reader.record
    [.may "key_info" (Reader.record KeyStatus.fields ⟨"", ""⟩) fun value _ => value] ⟨"", ""⟩

def CreatedKey.fields : List (Slot CreatedKey) :=
  [.must "key_id" Reader.text fun value key => { key with keyId := value },
    .may "domain_id" Reader.text fun value key => { key with domainId := value }]

def createdKeyReader : Reader CreatedKey :=
  Reader.record
    [.must "key_info" (Reader.record CreatedKey.fields ⟨"", ""⟩) fun value _ => value] ⟨"", ""⟩

def AliasEntry.fields : List (Slot AliasEntry) :=
  [.must "alias" Reader.text fun value entry => { entry with name := value },
    .may "key_id" (Reader.optional Reader.text) fun value entry => { entry with keyId := value }]

def AliasGroup.reader : Reader AliasGroup :=
  Reader.record
    [.may "aliases" (Reader.list (Reader.record AliasEntry.fields ⟨"", none⟩)) fun value _ =>
      ⟨value⟩] ⟨[]⟩

/-- A listing that is an array of groups. -/
def AliasListing.bareReader : Reader AliasListing := fun node =>
  (Reader.list AliasGroup.reader node).map AliasListing.mk

/-- A listing that is an object with the array of groups as its body. -/
def AliasListing.wrappedReader : Reader AliasListing :=
  Reader.record
    [.may "body" (Reader.list AliasGroup.reader) fun value _ => ⟨value⟩] ⟨[]⟩

/-- A listing of either form. The whole value is read first; then a value of neither form is
of another shape, whatever it fails in. -/
def AliasListing.reader : Reader AliasListing := fun node => do
  let _ ← node.value Json.depthLimit
  match AliasListing.bareReader node with
  | .ok listing => pure listing
  | .error _ => (AliasListing.wrappedReader node).mapError fun _ => Fault.mismatch

end KeyCustody.Service
