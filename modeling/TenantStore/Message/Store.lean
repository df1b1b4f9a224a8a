import TenantStore.Block.Listing
import TenantStore.Index.Store
import TenantStore.Message.Encoding

/-!
# The message store

Messages lie in a database of blocks, by tenant and identifier, with their inline payloads beside
them; their index lies in a database of its own or in the same one.  In one database a message and
its index entries are written in one batch.  In two databases a put writes the block, then the
index, and takes a new block back if the index could not be written; a delete removes the index
entries first.  What an interruption between the two steps leaves behind is repaired by
`Message.Repair`.

A put and a delete look at their context at every step, so they are given by what the looks see;
`put` and `delete` are the cases in which these see the same.
-/

namespace TenantStore

/-- The databases of a message store. -/
inductive MessageHandles where
  | shared (database : Database)
  | separate (blocks index : Database)

namespace MessageHandles

/-- Whether a message and its index entries are written in one batch. -/
def isAtomic : MessageHandles → Bool
  | .shared _ => true
  | .separate _ _ => false

/-- The database of the blocks. -/
def blocks : MessageHandles → Database
  | .shared database => database
  | .separate blocks _ => blocks

/-- The database of the index. -/
def index : MessageHandles → Database
  | .shared database => database
  | .separate _ index => index

/-- The handles with another state of the blocks' database. -/
def withBlocks (handles : MessageHandles) (database : Database) : MessageHandles :=
  match handles with
  | .shared _ => .shared database
  | .separate _ index => .separate database index

/-- The handles with another state of the index's database. -/
def withIndex (handles : MessageHandles) (database : Database) : MessageHandles :=
  match handles with
  | .shared _ => .shared database
  | .separate blocks _ => .separate blocks database

/-- Run an operation on the database of the blocks. -/
def onBlocks {α : Type} (operation : StoreM Database α) : StoreM MessageHandles α :=
  operation.onPart blocks withBlocks

/-- Run an operation on the database of the index. -/
def onIndex {α : Type} (operation : StoreM Database α) : StoreM MessageHandles α :=
  operation.onPart index withIndex

end MessageHandles

/-- A page of messages. -/
structure MessagePage where
  messages : List Json
  /-- The cursor of the page, if another one follows. -/
  cursor : Option String

namespace MessageStore

open MessageHandles

/-- Where the blocks of all tenants lie. -/
def messageBlocks : BlockPartition := ⟨Scope.root.childNamed "messages"⟩

/-- Where the inline payloads of all tenants lie. -/
def payloadScope : Scope := Scope.root.childNamed "encoded-data"

/-- The index of the messages. -/
def messageIndex : ItemIndex := ⟨Scope.root.childNamed "indexes"⟩

/-- Where the blocks of a tenant lie. -/
def tenantBlocks (tenant : String) : BlockPartition := messageBlocks.child tenant

/-- The key of an inline payload. -/
def payloadKey (tenant : String) (identifier : ContentId) : Bytes :=
  (payloadScope.childNamed tenant).key identifier.toBytes

/-- The changes that write a message: its block, and its inline payload or the absence of one. -/
def writeChanges (tenant : String) (message : EncodedMessage) : Except StoreError Batch := do
  let block ← (tenantBlocks tenant).putChange message.identifier message.content
  let key := payloadKey tenant message.identifier
  match message.payload with
  | some payload => pure [block, .put key (Text.bytes payload)]
  | none => pure [block, .delete key]

/-- The changes that remove a message. -/
def deleteChanges (tenant : String) (identifier : ContentId) : Batch :=
  [(tenantBlocks tenant).deleteChange identifier, .delete (payloadKey tenant identifier)]

/-- The message that the contents hold under an identifier, if there is one. -/
def loadFrom (contents : Contents) (tenant : String) (identifier : ContentId) :
    Except StoreError (Option Json) :=
  match contents.find? ((tenantBlocks tenant).blockKey identifier) with
  | none => .ok none
  | some content =>
    match contents.find? (payloadKey tenant identifier) with
    | none => (Message.decode content none).map some
    | some bytes =>
      match Text.ofBytes? bytes with
      | none => .error (.serialization .malformedMessage)
      | some payload => (Message.decode content (some payload)).map some

/-- The message of an identifier, if it is stored. -/
def load (context : Context) (tenant : String) (identifier : ContentId) :
    StoreM MessageHandles (Option Json) :=
  onBlocks (Database.read context fun contents => loadFrom contents tenant identifier)

/-- Open the databases, that of the blocks first. -/
def reopen : StoreM MessageHandles Unit := do
  onBlocks Database.reopen
  onIndex Database.reopen

/-- Close the databases. -/
def close : StoreM MessageHandles Unit := do
  onBlocks Database.close
  onIndex Database.close

/-- Write the block of a message, as one step. -/
def writeBlock (context : Context) (tenant : String) (message : EncodedMessage) :
    StoreM MessageHandles Unit := do
  let batch ← StoreM.ofExcept (writeChanges tenant message)
  onBlocks (Database.write context batch)

/-- Remove the block of a message, as one step. -/
def removeBlock (context : Context) (tenant : String) (identifier : ContentId) :
    StoreM MessageHandles Unit :=
  onBlocks (Database.write context (deleteChanges tenant identifier))

/-- Put a message into two databases: look whether the block is there, write it, write the index.  A
block that was not there is removed again if the index cannot be written, even if the caller has
given up meanwhile.  The steps look at the context after `putUnder` has looked at it once. -/
def putInSteps (looks : Looks) (tenant : String) (message : EncodedMessage)
    (properties : Properties) : StoreM MessageHandles Unit := do
  let existed ← onBlocks ((tenantBlocks tenant).has (looks 1) message.identifier)
  writeBlock (looks 2) tenant message
  let indexed ← StoreM.attempt <| onIndex <|
    messageIndex.put (looks 3) tenant message.identifier.toText properties
  match indexed with
  | .ok () => pure ()
  | .error problem =>
    if !existed then
      let _ ← StoreM.attempt (removeBlock .background tenant message.identifier)
    throw problem

/-- Put a message and its index entries into one database, in one batch. -/
def putAtOnce (context : Context) (tenant : String) (message : EncodedMessage)
    (properties : Properties) : StoreM MessageHandles Unit := do
  let batch ← StoreM.ofExcept (writeChanges tenant message)
  onIndex (messageIndex.putWith context tenant message.identifier.toText properties batch)

/-- Store a message under its properties, in place of the properties and the inline payload that it
was stored with before, with what each look at the context sees. -/
def putUnder (looks : Looks) (tenant : String) (message : Json) (properties : Properties) :
    StoreM MessageHandles ContentId := do
  StoreM.ofExcept (looks 0).check
  if properties.isEmpty then throw .emptyIndexSet
  let encoded := Message.encode message
  if (← get).isAtomic then putAtOnce (looks 1) tenant encoded properties
  else putInSteps looks tenant encoded properties
  pure encoded.identifier

/-- Store a message under a context that does not change meanwhile. -/
def put (context : Context) (tenant : String) (message : Json) (properties : Properties) :
    StoreM MessageHandles ContentId :=
  putUnder context.steady tenant message properties

/-- The message of a written identifier, if it is stored. -/
def find? (context : Context) (tenant identifier : String) :
    StoreM MessageHandles (Option Json) := do
  let identifier ← StoreM.ofExcept (ContentId.parse identifier)
  load context tenant identifier

/-- Remove a message from two databases, its index entries first. -/
def deleteInSteps (looks : Looks) (tenant : String) (identifier : ContentId) :
    StoreM MessageHandles Unit := do
  let _ ← onIndex (messageIndex.delete (looks 0) tenant identifier.toText)
  removeBlock (looks 1) tenant identifier

/-- Remove a message, with what each look at the context sees; it need not be stored. -/
def deleteUnder (looks : Looks) (tenant identifier : String) : StoreM MessageHandles Unit := do
  let identifier ← StoreM.ofExcept (ContentId.parse identifier)
  if (← get).isAtomic then
    let _ ← onIndex <|
      messageIndex.deleteWith (looks 0) tenant identifier.toText (deleteChanges tenant identifier)
  else deleteInSteps looks tenant identifier

/-- Remove a message under a context that does not change meanwhile. -/
def delete (context : Context) (tenant identifier : String) : StoreM MessageHandles Unit :=
  deleteUnder context.steady tenant identifier

/-- The items of a page, and its cursor if the items show that another page follows. -/
def pageItems (items : List IndexedItem) (pagination : Option Pagination) (sortProperty : String) :
    Except StoreError (List IndexedItem × Option String) :=
  match pagination.bind Pagination.pageSize? with
  | none => .ok (items, none)
  | some size =>
    if size < items.length then
      let kept := items.take size
      match kept.getLast? with
      | none => .ok (kept, none)
      | some last =>
        (Cursor.after last sortProperty).map fun cursor => (kept, some cursor.encode)
    else .ok (items, none)

/-- The messages of items; an item without a block is passed over. -/
def loadItems (context : Context) (tenant : String) (items : List IndexedItem) :
    StoreM MessageHandles (List Json) := do
  let loaded ← items.mapM fun item => do
    let identifier ← StoreM.ofExcept (ContentId.parse item.identifier)
    load context tenant identifier
  pure (loaded.filterMap id)

/-- A page of the tenant's messages that any of the filters admits and that carry the sort property,
in the order of its values and then of their identifiers. -/
def query (context : Context) (tenant : String) (filters : List Filter) (sort : Option MessageSort)
    (pagination : Option Pagination) : StoreM MessageHandles MessagePage := do
  let options := QueryOptions.forPage sort pagination
  let page ← onIndex (messageIndex.query context tenant filters options)
  let (items, cursor) ← StoreM.ofExcept (pageItems page.items pagination options.sortProperty)
  let messages ← loadItems context tenant items
  pure ⟨messages, cursor⟩

/-- The changes that remove every message of every tenant from the database of the blocks. -/
def clearChanges : Batch := [messageBlocks.clearChange, .deleteRange payloadScope.range]

/-- Remove every message of every tenant. -/
def clear (context : Context) : StoreM MessageHandles Unit := do
  if (← get).isAtomic then
    onBlocks (Database.write context (clearChanges ++ [messageIndex.clearChange]))
  else
    onBlocks (Database.write context clearChanges)
    onIndex (messageIndex.clear context)

end MessageStore

end TenantStore
