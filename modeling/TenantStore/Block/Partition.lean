import TenantStore.Database
import TenantStore.Key.Scope

/-!
# Blocks

A partition of a database holds blocks, each under the binary form of its content identifier.  A
block is written only if its bytes have the digest that the identifier names.
-/

namespace TenantStore

/-- A partition that holds blocks. -/
structure BlockPartition where
  scope : Scope
  deriving DecidableEq, Repr

namespace BlockPartition

/-- The partition of that name inside this one. -/
def child (partition : BlockPartition) (name : String) : BlockPartition :=
  ⟨partition.scope.childNamed name⟩

/-- The key of a block. -/
def blockKey (partition : BlockPartition) (identifier : ContentId) : Bytes :=
  partition.scope.key identifier.toBytes

/-- The change that writes a block, if its bytes are those that the identifier names. -/
def putChange (partition : BlockPartition) (identifier : ContentId) (content : Bytes) :
    Except StoreError Change := do
  identifier.verify content
  pure (.put (partition.blockKey identifier) content)

/-- The change that removes a block. -/
def deleteChange (partition : BlockPartition) (identifier : ContentId) : Change :=
  .delete (partition.blockKey identifier)

/-- The change that removes every block, those of nested partitions included. -/
def clearChange (partition : BlockPartition) : Change := .deleteRange partition.scope.range

/-- Write blocks in one batch, none if any of them is refused. -/
def putMany (partition : BlockPartition) (context : Context) (blocks : List (ContentId × Bytes)) :
    StoreM Database Unit := do
  let batch ← StoreM.ofExcept (blocks.mapM fun block => partition.putChange block.1 block.2)
  Database.write context batch

/-- Write a block. -/
def put (partition : BlockPartition) (context : Context) (identifier : ContentId)
    (content : Bytes) : StoreM Database Unit :=
  partition.putMany context [(identifier, content)]

/-- The content of a block, if it is there. -/
def get (partition : BlockPartition) (context : Context) (identifier : ContentId) :
    StoreM Database (Option Bytes) :=
  Database.read context fun contents => .ok (contents.find? (partition.blockKey identifier))

/-- Whether a block is there. -/
def has (partition : BlockPartition) (context : Context) (identifier : ContentId) :
    StoreM Database Bool :=
  Database.read context fun contents => .ok (contents.contains (partition.blockKey identifier))

/-- Remove a block; it need not be there. -/
def delete (partition : BlockPartition) (context : Context) (identifier : ContentId) :
    StoreM Database Unit :=
  Database.write context [partition.deleteChange identifier]

/-- Remove everything in the partition and in those nested in it. -/
def clear (partition : BlockPartition) (context : Context) : StoreM Database Unit :=
  Database.write context [partition.clearChange]

/-- Whether nothing is stored in the partition or in one nested in it. -/
def isEmpty (partition : BlockPartition) (context : Context) : StoreM Database Bool :=
  Database.read context fun contents =>
    .ok (contents.scan partition.scope.range .ascending (some 1)).isEmpty

/-- The identifier under which a key of this very partition holds a block. -/
def blockOf? (partition : BlockPartition) (key : Bytes) : Option ContentId := do
  let rest ← partition.scope.strip? key
  let (segment, tail) ← Key.split? rest
  if tail.isEmpty then (ContentId.ofBytes segment).toOption else none

end BlockPartition

end TenantStore
