import TenantStore.Block.Partition
import TenantStore.Payload.Node

/-!
# Reading payloads

A reader walks over the blocks of a payload, depth first, and fetches a block only when its bytes
are asked for.  A block leaves the list of those to come before it is fetched, whether or not the
fetch succeeds.
-/

namespace TenantStore

/-- The number of payload bytes that a root block tells. -/
def payloadSize (root : ContentId) (content : Bytes) : Except StoreError Nat :=
  if root.codec = ContentId.rawCodec then .ok content.length
  else if root.codec = ContentId.nodeCodec then (PayloadNode.decode content).map PayloadNode.size
  else .error (.invalidContentId (.notPayload root))

/-- A walk over the bytes of a payload. -/
structure PayloadReader where
  partition : BlockPartition
  context : Context
  pending : List ContentId
  /-- The bytes of the present leaf that were not yet given out. -/
  current : Bytes

namespace PayloadReader

/-- Enter a block: a leaf becomes the present one, and a node puts its links in front. -/
def visit (reader : PayloadReader) (identifier : ContentId) (content : Bytes) :
    Except StoreError PayloadReader :=
  if identifier.codec = ContentId.rawCodec then .ok { reader with current := content }
  else if identifier.codec = ContentId.nodeCodec then
    (PayloadNode.decode content).map fun node =>
      { reader with pending := node.links.map PayloadLink.target ++ reader.pending }
  else .error (.invalidContentId (.notPayload identifier))

/-- The reader of a payload whose root block was fetched. -/
def begin (partition : BlockPartition) (context : Context) (root : ContentId) (content : Bytes) :
    Except StoreError PayloadReader :=
  visit ⟨partition, context, [], []⟩ root content

/-- Fetch a block and enter it. -/
def enter (reader : PayloadReader) (identifier : ContentId) (database : Database) :
    Except StoreError PayloadReader := do
  match ← ((reader.partition.get reader.context identifier).on database).1 with
  | some content => reader.visit identifier content
  | none => .error (.payloadBlockNotFound identifier)

/-- Read up to `count` bytes, entering at most `visits` blocks; no bytes mean the end of the payload
if some were asked for. -/
def readWithin (visits : Nat) (reader : PayloadReader) (database : Database) (count : Nat) :
    Except StoreError Bytes × PayloadReader :=
  let taken := reader.current.take count
  if !taken.isEmpty || count = 0 then
    (.ok taken, { reader with current := reader.current.drop count })
  else
    match visits, reader.pending with
    | 0, _ => (.ok [], reader)
    | _, [] => (.ok [], reader)
    | visits + 1, identifier :: rest =>
      let remaining := { reader with pending := rest }
      match remaining.enter identifier database with
      | .error problem => (.error (.readFailed problem), remaining)
      | .ok entered => readWithin visits entered database count

/-- The number of bytes that the keys of a partition are bound to. -/
def storedLength (partition : BlockPartition) (database : Database) : Nat :=
  let stored := database.contents.scan partition.scope.range .ascending none
  stored.foldr (fun entry total => entry.2.length + total) 0

/-- A bound on the blocks that one reading can enter.  A node lists fewer blocks than it has bytes,
so from each block to come a walk over blocks of `n` bytes in all, none of which lies below itself,
enters at most `2 ^ n` of them. -/
def visitBound (reader : PayloadReader) (database : Database) : Nat :=
  (reader.pending.length + 1) <<< storedLength reader.partition database

/-- Read up to `count` bytes; no bytes mean the end of the payload if some were asked for. -/
def read (reader : PayloadReader) (database : Database) (count : Nat) :
    Except StoreError Bytes × PayloadReader :=
  reader.readWithin (reader.visitBound database) database count

/-- What a sequence of readings gave. -/
structure Outcome where
  content : Bytes
  /-- The error that ended the readings, if one did. -/
  problem : Option StoreError
  reader : PayloadReader

/-- Read until `wanted` bytes have come, the payload ends or an error occurs, in at most `readings`
readings that enter at most `visits` blocks each; `parts` came before, newest first. -/
def drainWithin (readings visits : Nat) (reader : PayloadReader) (database : Database)
    (wanted : Nat) (parts : List Bytes) : Outcome :=
  match readings with
  | 0 => ⟨parts.reverse.flatten, none, reader⟩
  | readings + 1 =>
    match reader.readWithin visits database wanted with
    | (.error problem, reader) => ⟨parts.reverse.flatten, some problem, reader⟩
    | (.ok part, reader) =>
      if part.isEmpty then ⟨parts.reverse.flatten, none, reader⟩
      else drainWithin readings visits reader database (wanted - part.length) (part :: parts)

/-- Read until `wanted` bytes have come, the payload ends or an error occurs.  Every reading but the
last gives a byte, and all of them together enter no more blocks than the bound. -/
def drain (reader : PayloadReader) (database : Database) (wanted : Nat) : Outcome :=
  reader.drainWithin (wanted + 1) (reader.visitBound database) database wanted []

end PayloadReader

end TenantStore
