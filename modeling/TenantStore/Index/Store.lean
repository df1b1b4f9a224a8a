import TenantStore.Block.Partition
import TenantStore.Index.Record
import TenantStore.Index.SortText
import TenantStore.Query.Filter
import TenantStore.Query.Options

/-!
# The index of a tenant's items

An item is written twice.  For each of its properties there is a forward entry under the property,
the value and the identifier of the item, which holds the whole item, so a scan of one property
visits the items in the order of their values.  One reverse entry under the identifier holds the
properties, so the forward entries can be found when the item changes.  Both halves are written in
one batch.
-/

namespace TenantStore

/-- An index, given by the partition that it lies in. -/
structure ItemIndex where
  root : Scope
  deriving DecidableEq, Repr

/-- The items of a page, in the order of the query. -/
structure IndexPage where
  items : List IndexedItem
  /-- The cursor after the last item, if the page is full. -/
  cursor : Option String

namespace ItemIndex

/-- Where the forward entries of a property lie. -/
def propertyScope (index : ItemIndex) (tenant property : String) : Scope :=
  (index.root.childNamed tenant).childNamed ("__" ++ property ++ "__")

/-- Where the reverse entries lie. -/
def reverseScope (index : ItemIndex) (tenant : String) : Scope :=
  (index.root.childNamed tenant).childNamed "index"

/-- The key of a reverse entry; it is there exactly if the item is indexed. -/
def reverseKey (index : ItemIndex) (tenant item : String) : Bytes :=
  (index.reverseScope tenant).key (Text.bytes item)

/-- The key of a forward entry. -/
def forwardKey (index : ItemIndex) (tenant property : String) (value : IndexValue) (item : String) :
    Bytes :=
  (index.propertyScope tenant property).keyOf [value.sortBytes, Text.bytes item]

/-- The changes that remove the forward entries of an item. -/
def forwardDeletes (index : ItemIndex) (tenant item : String) (properties : Properties) : Batch :=
  properties.toList.map fun entry => .delete (index.forwardKey tenant entry.1 entry.2 item)

/-- The changes that write the forward entries of an item. -/
def forwardPuts (index : ItemIndex) (tenant : String) (item : IndexedItem) : Batch :=
  item.properties.toList.map fun entry =>
    .put (index.forwardKey tenant entry.1 entry.2 item.identifier) item.toRecord

/-- The changes that index an item in place of what the contents hold of it. -/
def putBatch (index : ItemIndex) (contents : Contents) (tenant item : String)
    (properties : Properties) : Except StoreError Batch := do
  if properties.isEmpty then throw .emptyIndexSet
  let key := index.reverseKey tenant item
  let removed ← match contents.find? key with
    | none => pure []
    | some record => do
      pure (index.forwardDeletes tenant item (← Properties.ofRecord record))
  pure (removed ++ index.forwardPuts tenant ⟨item, properties⟩ ++
    [.put key properties.toRecord])

/-- The changes that remove what the contents hold of an item, if it is indexed. -/
def deleteBatch? (index : ItemIndex) (contents : Contents) (tenant item : String) :
    Except StoreError (Option Batch) := do
  let key := index.reverseKey tenant item
  match contents.find? key with
  | none => pure none
  | some record =>
    pure (some (index.forwardDeletes tenant item (← Properties.ofRecord record) ++ [.delete key]))

/-- Index an item in place of its earlier entries, with further changes in the same batch. -/
def putWith (index : ItemIndex) (context : Context) (tenant item : String)
    (properties : Properties) (further : Batch) : StoreM Database Unit :=
  Database.update context fun contents => do
    pure ((), (← index.putBatch contents tenant item properties) ++ further)

/-- Index an item in place of its earlier entries. -/
def put (index : ItemIndex) (context : Context) (tenant item : String) (properties : Properties) :
    StoreM Database Unit :=
  index.putWith context tenant item properties []

/-- Remove an item, with further changes in the same batch that are made even if the item was not
indexed; whether it was is told. -/
def deleteWith (index : ItemIndex) (context : Context) (tenant item : String) (further : Batch) :
    StoreM Database Bool :=
  Database.update context fun contents => do
    let removal? ← index.deleteBatch? contents tenant item
    pure (removal?.isSome, removal?.getD [] ++ further)

/-- Remove an item; whether it was indexed is told. -/
def delete (index : ItemIndex) (context : Context) (tenant item : String) : StoreM Database Bool :=
  index.deleteWith context tenant item []

/-- The change that removes every item of every tenant. -/
def clearChange (index : ItemIndex) : Change := .deleteRange index.root.range

/-- Remove every item of every tenant. -/
def clear (index : ItemIndex) (context : Context) : StoreM Database Unit :=
  Database.write context [index.clearChange]

/-- The properties of an item that the contents hold, if it is indexed. -/
def propertiesIn? (index : ItemIndex) (contents : Contents) (tenant item : String) :
    Except StoreError (Option Properties) :=
  match contents.find? (index.reverseKey tenant item) with
  | none => .ok none
  | some record => (Properties.ofRecord record).map some

/-- The properties of an item, if it is indexed. -/
def properties? (index : ItemIndex) (context : Context) (tenant item : String) :
    StoreM Database (Option Properties) :=
  Database.read context fun contents => index.propertiesIn? contents tenant item

/-- The identifiers of the tenant's items that the contents hold, in ascending order of their
bytes. -/
def identifiersIn (index : ItemIndex) (contents : Contents) (tenant : String) :
    Except StoreError (List String) := do
  let scope := index.reverseScope tenant
  let leaves ← (contents.scan scope.range .ascending none).mapM fun entry =>
    scope.leafSegments entry.1
  pure (leaves.filterMap fun leaf =>
    match leaf with
    | [item] => some (Text.ofBytesLenient item)
    | _ => none)

/-- The identifiers of the tenant's items, in ascending order of their bytes. -/
def identifiers (index : ItemIndex) (context : Context) (tenant : String) :
    StoreM Database (List String) :=
  Database.read context fun contents => index.identifiersIn contents tenant

/-- The part of a property's forward entries that items admitted by the filters can lie in.  A
single filter that constrains the sort property bounds it; everything found is still held against
the filters. -/
def narrowedRange (scope : Scope) (filters : List Filter) (sortProperty : String) : KeyRange :=
  match filters with
  | [filter] =>
    match filter.find? sortProperty with
    | some (.equal value) => (scope.child value.sortBytes).range
    | some (.within bounds) =>
      let raised :=
        match bounds.lower? with
        | none => scope.range
        | some (value, admitted) =>
          let position := (scope.child value.sortBytes).location
          if admitted then scope.range.startingAt position
          else
            match Key.pastAll? position with
            | some past => scope.range.startingAt past
            | none => scope.range
      match bounds.upper? with
      | none => raised
      | some (value, admitted) =>
        let position := (scope.child value.sortBytes).location
        if admitted then
          match Key.pastAll? position with
          | some past => raised.stoppingAt past
          | none => raised
        else raised.stoppingAt position
    | _ => scope.range
  | _ => scope.range

/-- The part of a range that lies beyond a key in the given direction. -/
def beyond (range : KeyRange) (direction : Direction) (key : Bytes) : KeyRange :=
  match direction with
  | .ascending => range.startingAt (Key.next key)
  | .descending => range.stoppingAt key

/-- Whether as many items as asked for have been found. -/
def isFull (found : List IndexedItem) (limit : Option Nat) : Bool :=
  match limit with
  | none => false
  | some limit => limit ≤ found.length

/-- Go through the entries of one page, `found` holding the items found so far in reverse; whether
the limit was reached is told. -/
def sift (filters : List Filter) (limit : Option Nat) (found : List IndexedItem) :
    List (Bytes × Bytes) → Except StoreError (List IndexedItem × Bool)
  | [] => .ok (found, false)
  | entry :: rest => do
    let item ← IndexedItem.ofRecord entry.2
    if Filter.anyMatches filters item.properties then
      let found := item :: found
      if isFull found limit then pure (found, true) else sift filters limit found rest
    else sift filters limit found rest

/-- Scan a range page by page, at most `pages` pages, until `limit` admitted items are found. -/
def collectWithin (pages : Nat) (contents : Contents) (pageSize : Nat) (range : KeyRange)
    (direction : Direction) (filters : List Filter) (limit : Option Nat)
    (found : List IndexedItem) : Except StoreError (List IndexedItem) :=
  match pages with
  | 0 => .ok found.reverse
  | pages + 1 =>
    if range.isDegenerate then .ok found.reverse
    else
      let page := contents.scan range direction (some pageSize)
      match page.getLast? with
      | none => .ok found.reverse
      | some (lastKey, _) => do
        let (found, full) ← sift filters limit found page
        if full || page.length < pageSize then pure found.reverse
        else
          collectWithin pages contents pageSize (beyond range direction lastKey) direction filters
            limit found

/-- The admitted items of a range in the given direction, at most `limit` of them.  Every page that
is followed by another holds a key of its own, so there are not more pages than keys in the range,
and one. -/
def collect (contents : Contents) (pageSize : Nat) (range : KeyRange) (direction : Direction)
    (filters : List Filter) (limit : Option Nat) : Except StoreError (List IndexedItem) :=
  let keys := (contents.scan range direction none).length
  collectWithin (keys + 1) contents pageSize range direction filters limit []

/-- The number of entries that are fetched at once. -/
def scanPageSize : Nat := 256

/-- The cursor after a page that holds as many items as were asked for. -/
def pageCursor (items : List IndexedItem) (limit : Option Nat) (sortProperty : String) :
    Except StoreError (Option String) :=
  match limit, items.getLast? with
  | some limit, some last =>
    if limit ≤ items.length then (Cursor.after last sortProperty).map (some ·.encode) else .ok none
  | _, _ => .ok none

/-- The part of the forward entries of the sort property that a query goes through. -/
def queryRange (index : ItemIndex) (tenant : String) (filters : List Filter)
    (options : QueryOptions) : Except StoreError KeyRange := do
  let scope := index.propertyScope tenant options.sortProperty
  let narrowed := narrowedRange scope filters options.sortProperty
  match options.cursor with
  | none => pure narrowed
  | some token => do
    let cursor ← Cursor.decode token
    let position := scope.keyOf [cursor.value.sortBytes, Text.bytes cursor.identifier]
    pure (beyond narrowed options.direction position)

/-- The tenant's items that any of the filters admits and that carry the sort property, in the order
of its values and then of their identifiers. -/
def query (index : ItemIndex) (context : Context) (tenant : String) (filters : List Filter)
    (options : QueryOptions) : StoreM Database IndexPage := do
  StoreM.ofExcept (Filter.validateAll filters)
  let range ← StoreM.ofExcept (index.queryRange tenant filters options)
  let limit := options.limit.filter (0 < ·)
  let items ← Database.read context fun contents =>
    collect contents scanPageSize range options.direction filters limit
  let cursor ← StoreM.ofExcept (pageCursor items limit options.sortProperty)
  pure ⟨items, cursor⟩

/-- The page of a query and those reached by following its cursor, at most `count` pages. -/
def pages (index : ItemIndex) (context : Context) (tenant : String) (filters : List Filter) :
    (count : Nat) → QueryOptions → StoreM Database (List IndexPage)
  | 0, _ => pure []
  | count + 1, options => do
    let page ← index.query context tenant filters options
    match page.cursor with
    | none => pure [page]
    | some cursor => do
      let following := { options with cursor := some cursor }
      pure (page :: (← pages index context tenant filters count following))

end ItemIndex

end TenantStore
