import TenantStore.Payload.Import
import TenantStore.Payload.Reader
import TenantStore.Reference.Ledger

/-!
# The payload store

A payload is kept once per tenant, with a reference for every message that needs it; when the last
reference goes, its blocks go with it.  Blocks and references lie in one database, so each operation
is one batch.
-/

namespace TenantStore

/-- A payload that was stored or referred to. -/
structure StoredPayload where
  identifier : ContentId
  size : Nat
  deriving DecidableEq

/-- A payload that is being read. -/
structure OpenedPayload where
  identifier : ContentId
  size : Nat
  reader : PayloadReader

namespace PayloadStore

/-- Where the payloads of all tenants lie. -/
def payloadBlocks : BlockPartition := ⟨Scope.root.childNamed "data"⟩

/-- Where the blocks of one payload lie. -/
def partitionOf (tenant : String) (payload : ContentId) : BlockPartition :=
  (payloadBlocks.child tenant).child payload.toText

/-- The key of the root block of a payload. -/
def rootKey (tenant : String) (payload : ContentId) : Bytes :=
  (partitionOf tenant payload).blockKey payload

/-- The error for a payload that is not kept. -/
def notFound (tenant : String) (payload : ContentId) : StoreError :=
  .payloadNotFound tenant payload.toText

/-- Open the database. -/
def reopen : StoreM Database Unit := Database.reopen

/-- Close the database. -/
def close : StoreM Database Unit := Database.close

/-- The changes that write the blocks of a payload and a reference to it. -/
def putChanges (tenant message : String) (tree : PayloadTree) : Except StoreError Batch := do
  let partition := partitionOf tenant tree.root
  let blocks ← tree.blocks.mapM fun block => partition.putChange block.1 block.2
  pure (blocks ++ [ReferenceLedger.addChange tenant tree.root message])

/-- Read a payload and keep it for a message.  Nothing is written unless the bytes come to an end
and the payload has the expected identifier. -/
def put (layout : PayloadLayout) (context : Context) (tenant message payload : String)
    (feed : Feed) : StoreM Database StoredPayload := do
  StoreM.ofExcept context.check
  let expected ← StoreM.ofExcept (ContentId.parse payload)
  let tree ← StoreM.ofExcept (layout.build feed)
  if tree.root ≠ expected then throw (.contentMismatch expected.toText tree.root.toText)
  let batch ← StoreM.ofExcept (putChanges tenant message tree)
  Database.write context batch
  pure ⟨expected, tree.size⟩

/-- The root block of a payload and whether a message refers to the payload. -/
def rootIn (contents : Contents) (tenant message : String) (payload : ContentId) :
    Option Bytes × Bool :=
  (contents.find? (rootKey tenant payload),
    contents.contains (ReferenceLedger.markerKey tenant payload message))

/-- Open a payload for a message that refers to it. -/
def openPayload (context : Context) (tenant message payload : String) :
    StoreM Database OpenedPayload := do
  let identifier ← StoreM.ofExcept (ContentId.parse payload)
  let (root?, referenced) ← Database.read context fun contents =>
    .ok (rootIn contents tenant message identifier)
  match root? with
  | none => throw (notFound tenant identifier)
  | some root =>
    if !referenced then throw (.accessDenied message identifier.toText)
    let size ← StoreM.ofExcept (payloadSize identifier root)
    let reader ← StoreM.ofExcept <|
      PayloadReader.begin (partitionOf tenant identifier) context identifier root
    pure ⟨identifier, size, reader⟩

/-- Let a message refer to a payload that is kept. -/
def associate (context : Context) (tenant message payload : String) :
    StoreM Database StoredPayload := do
  let identifier ← StoreM.ofExcept (ContentId.parse payload)
  let size ← Database.update context fun contents =>
    match contents.find? (rootKey tenant identifier) with
    | none => .error (notFound tenant identifier)
    | some root => do
      let size ← payloadSize identifier root
      pure (size, [ReferenceLedger.addChange tenant identifier message])
  pure ⟨identifier, size⟩

/-- The changes that drop a message's reference and, if no other is left, the payload. -/
def deleteChanges (contents : Contents) (tenant message : String) (payload : ContentId) :
    Except StoreError Batch := do
  let references ← ReferenceLedger.referencesIn contents tenant payload
  let remaining : ReferenceSet := references.erase message
  let dropped := ReferenceLedger.removeChange tenant payload message
  if remaining.retains then pure [dropped]
  else pure [dropped, (partitionOf tenant payload).clearChange]

/-- Drop a message's reference to a payload, and the payload if no other reference is left. -/
def delete (context : Context) (tenant message payload : String) : StoreM Database Unit := do
  let identifier ← StoreM.ofExcept (ContentId.parse payload)
  Database.update context fun contents => do
    pure ((), ← deleteChanges contents tenant message identifier)

/-- Drop every payload and every reference. -/
def clear (context : Context) : StoreM Database Unit :=
  Database.write context [payloadBlocks.clearChange, ReferenceLedger.clearChange]

end PayloadStore

end TenantStore
