import KeyCustody.Custody

namespace KeyCustody.Inventory

/-! # Inventory

Keys and tags are listed apart and joined by key id. Tags come in pages; collecting them
stops at a failed page and keeps what it has, while a failed listing of keys is a failure
of the inventory. A record takes its tags out of the collection. -/

/-- Tags by key id, the newest entry first. Of several entries for a key the newest counts. -/
structure TagMap where
  entries : List (String × List Key.Tag)
  deriving DecidableEq, Repr

namespace TagMap

def empty : TagMap := ⟨[]⟩

def find? (tags : TagMap) (id : String) : Option (List Key.Tag) := tags.entries.lookup id

def insert (tags : TagMap) (id : String) (value : List Key.Tag) : TagMap :=
  ⟨(id, value) :: tags.entries⟩

def erase (tags : TagMap) (id : String) : TagMap :=
  ⟨tags.entries.filter fun entry => entry.1 != id⟩

/-- Takes the keys of a page in, in their order. -/
def insertPage (tags : TagMap) (keys : List Service.TaggedKey) : TagMap :=
  keys.foldl (fun held key => held.insert key.id key.tags) tags

/-- Leaves out each entry that has the id of the one before it. -/
def dropRepeated : List (String × List Key.Tag) → List (String × List Key.Tag)
  | first :: second :: rest =>
      if first.1 = second.1 then dropRepeated (first :: rest)
      else first :: dropRepeated (second :: rest)
  | short => short
termination_by entries => entries.length

/-- The entries that count, sorted by id. -/
def sorted (tags : TagMap) : List (String × List Key.Tag) :=
  dropRepeated (tags.entries.mergeSort fun first second => first.1 ≤ second.1)

end TagMap

/-- Keys on a page. -/
def pageSize : Nat := 1000

/-- Offsets are 64-bit numbers, so there are no more pages than this. -/
def pageBudget : Nat := Nat.pow 2 64 / pageSize + 1

def tagAction : String := "filter"

/-- Collects pages from an offset on. The last page is one that fails, that gives no total
count or a count of zero, or that holds no more keys than the next offset. -/
def collectTagsFrom : Nat → Nat → TagMap → Custody TagMap
  | 0, _, tags => pure tags
  | pages + 1, offset, tags => do
      match ← Custody.call (.tagPage ⟨tagAction, toString offset, toString pageSize⟩) with
      | .error _ =>
          Custody.note .tagsUnavailable
          pure tags
      | .ok page =>
          let tags := tags.insertPage page.keys
          let next := offset + pageSize
          if page.totalCount.getD 0 = 0 ∨ page.keys.length ≤ next then pure tags
          else collectTagsFrom pages next tags

def collectTags : Custody TagMap := collectTagsFrom pageBudget 0 .empty

/-- Joins keys with their tags, in the order of the keys. -/
def merge (tags : TagMap) : List Key.Detail → List Key.Record
  | [] => []
  | detail :: rest =>
      Key.Record.ofDetail detail ((tags.find? detail.keyId).getD []) ::
        merge (tags.erase detail.keyId) rest

def everySpec : String := "ALL"

/-- Every key with its tags, in the provider's order. -/
def listKeys : Errand (List Key.Record) := do
  let tags ← collectTags
  let details ← (Errand.call (.listKeys everySpec)).noting .keysUnavailable
  pure (merge tags details)

/-- The keys with one of the ids. -/
def getKeys (ids : List String) : Errand (List Key.Record) := do
  pure ((← listKeys).filter fun record => ids.contains record.keyId)

end KeyCustody.Inventory
