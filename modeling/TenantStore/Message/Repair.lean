import TenantStore.Message.Store

/-!
# Repairing a message store

An interruption between the two steps of a write can leave a block that is not indexed, an orphan,
or an index entry without a block, which dangles.  A repair lists the candidates of a tenant and
removes those that are still what they seemed when their turn comes.
-/

namespace TenantStore

/-- What a repair removed. -/
structure RepairReport where
  orphaned : List String := []
  dangling : List String := []
  deriving DecidableEq, Repr

namespace RepairReport

/-- Whether nothing was removed. -/
def isClean (report : RepairReport) : Bool := report.orphaned.isEmpty && report.dangling.isEmpty

end RepairReport

namespace MessageStore

open MessageHandles

/-- Remove the block of an identifier unless it is indexed, which its reverse entry tells; whether
it was removed is told. -/
def removeOrphanUnder (looks : Looks) (tenant : String) (identifier : ContentId) :
    StoreM MessageHandles Bool := do
  let changes := deleteChanges tenant identifier
  let item := identifier.toText
  if (← get).isAtomic then
    onBlocks <| Database.update (looks 0) fun contents =>
      if contents.contains (messageIndex.reverseKey tenant item) then .ok (false, [])
      else .ok (true, changes)
  else
    match ← onIndex (messageIndex.properties? (looks 0) tenant item) with
    | some _ => pure false
    | none =>
      onBlocks (Database.write (looks 1) changes)
      pure true

/-- Remove an orphan under a context that does not change meanwhile. -/
def removeOrphan (context : Context) (tenant : String) (identifier : ContentId) :
    StoreM MessageHandles Bool :=
  removeOrphanUnder context.steady tenant identifier

/-- The key of the block that an item should have, if its identifier is that of a block. -/
def blockKey? (tenant item : String) : Option Bytes :=
  (ContentId.parse item).toOption.map (tenantBlocks tenant).blockKey

/-- Whether the block of an item is there. -/
def holdsBlock (contents : Contents) (tenant item : String) : Bool :=
  match blockKey? tenant item with
  | some key => contents.contains key
  | none => false

/-- Remove the index entries of an item unless its block is there; whether any were removed is
told. -/
def removeDanglingUnder (looks : Looks) (tenant item : String) : StoreM MessageHandles Bool := do
  if (← get).isAtomic then
    onBlocks <| Database.update (looks 0) fun contents =>
      if holdsBlock contents tenant item then .ok (false, [])
      else
        (messageIndex.deleteBatch? contents tenant item).map fun removal? =>
          (removal?.isSome, removal?.getD [])
  else
    let present ←
      if (blockKey? tenant item).isSome then
        onBlocks (Database.read (looks 0) fun contents => .ok (holdsBlock contents tenant item))
      else pure false
    if present then pure false else onIndex (messageIndex.delete (looks 1) tenant item)

/-- Remove dangling entries under a context that does not change meanwhile. -/
def removeDangling (context : Context) (tenant item : String) : StoreM MessageHandles Bool :=
  removeDanglingUnder context.steady tenant item

/-- The identifiers among the candidates that the removal took away, in their order. -/
def removed {α : Type} (candidates : List α) (remove : α → StoreM MessageHandles Bool) :
    StoreM MessageHandles (List α) := do
  let outcomes ← candidates.mapM fun candidate => do
    pure (candidate, ← remove candidate)
  pure ((outcomes.filter Prod.snd).map Prod.fst)

/-- Whether a text is among texts that ascend by their bytes, found by bisection. -/
def isAmong (texts : Array String) (text : String) : Bool :=
  texts.binSearchContains text fun first second => Text.bytes first < Text.bytes second

/-- Remove the tenant's blocks that are not indexed and the index entries that have no block. -/
def reconcile (context : Context) (tenant : String) : StoreM MessageHandles RepairReport := do
  let indexed ← onIndex (messageIndex.identifiers context tenant)
  let stored ← onBlocks ((tenantBlocks tenant).identifiers context)
  let orphans := stored.filter fun identifier => !isAmong indexed.toArray identifier.toText
  let orphaned ← removed orphans (removeOrphan context tenant)
  let dangling ← removed indexed (removeDangling context tenant)
  pure { orphaned := orphaned.map ContentId.toText, dangling }

end MessageStore

end TenantStore
