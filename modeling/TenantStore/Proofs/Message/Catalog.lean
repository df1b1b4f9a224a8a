import Mathlib.Data.List.Basic
import Mathlib.Tactic.Common
import TenantStore.Message.Store
import TenantStore.Proofs.ContentId.RoundTrip
import TenantStore.Proofs.Index.Operations
import TenantStore.Proofs.Key.Partitions
import TenantStore.Proofs.Message.RoundTrip

/-!
# The catalog of a message store

What a message store holds is a catalog: for a tenant and an identifier the block of a message, its
inline payload if it has one, and the properties that it is indexed under.  The blocks and the
payloads lie in scopes of their own, which share no key with the index, so each half of a write
leaves the other half of the store alone, in one database or in two.
-/

namespace TenantStore

/-- What a message store holds of a message. -/
structure StoredMessage where
  /-- The bytes of the block. -/
  content : Bytes
  /-- The inline payload. -/
  payload : Option String
  /-- The properties in the index. -/
  properties : Properties

namespace StoredMessage

/-- What a store holds of a message that is put. -/
def of (message : Json) (properties : Properties) : StoredMessage :=
  ⟨(Message.encode message).content, (Message.encode message).payload, properties⟩

/-- The message, read back. -/
def load (stored : StoredMessage) : Except StoreError Json :=
  Message.decode stored.content stored.payload

/-- The identifier of the block. -/
def identifier (stored : StoredMessage) : ContentId := .of ContentId.messageCodec stored.content

theorem identifier_of (message : Json) (properties : Properties) :
    (of message properties).identifier = (Message.encode message).identifier := rfl

end StoredMessage

/-- The messages of a store by tenant and identifier. -/
abbrev MessageCatalog := OrderedMap (List String) StoredMessage

/-- The items that the index of a message store holds. -/
def MessageCatalog.items (catalog : MessageCatalog) : ItemCatalog :=
  catalog.mapValues StoredMessage.properties

theorem MessageCatalog.size_items (catalog : MessageCatalog) : catalog.items.size = catalog.size :=
  OrderedMap.size_mapValues _ _

/-- The message of an identifier, read back, if it is stored. -/
def MessageCatalog.load? (catalog : MessageCatalog) (tenant identifier : String) :
    Except StoreError (Option Json) :=
  match catalog.find? [tenant, identifier] with
  | none => .ok none
  | some stored => stored.load.map some

namespace MessageStore

theorem blockKey_eq_encode (tenant : String) (identifier : ContentId) :
    (tenantBlocks tenant).blockKey identifier =
      Key.encode [Text.bytes "messages", Text.bytes tenant, identifier.toBytes] := by
  simp [BlockPartition.blockKey, tenantBlocks, messageBlocks, BlockPartition.child, Scope.key,
    Scope.keyOf_eq_encode, Scope.childNamed, Scope.child, Scope.root]

theorem payloadKey_eq_encode (tenant : String) (identifier : ContentId) :
    payloadKey tenant identifier =
      Key.encode [Text.bytes "encoded-data", Text.bytes tenant, identifier.toBytes] := by
  simp [payloadKey, payloadScope, Scope.key, Scope.keyOf_eq_encode, Scope.childNamed, Scope.child,
    Scope.root]

@[simp]
theorem blockKey_inj {tenant otherTenant : String} {identifier other : ContentId} :
    (tenantBlocks tenant).blockKey identifier = (tenantBlocks otherTenant).blockKey other ↔
      tenant = otherTenant ∧ identifier = other := by
  rw [blockKey_eq_encode, blockKey_eq_encode, Key.encode_inj]
  simp

@[simp]
theorem payloadKey_inj {tenant otherTenant : String} {identifier other : ContentId} :
    payloadKey tenant identifier = payloadKey otherTenant other ↔
      tenant = otherTenant ∧ identifier = other := by
  rw [payloadKey_eq_encode, payloadKey_eq_encode, Key.encode_inj]
  simp

@[simp]
theorem blockKey_ne_payloadKey (tenant otherTenant : String) (identifier other : ContentId) :
    (tenantBlocks tenant).blockKey identifier ≠ payloadKey otherTenant other := by
  have different : "messages" ≠ "encoded-data" := by decide
  rw [blockKey_eq_encode, payloadKey_eq_encode, ne_eq, Key.encode_inj]
  simp [different]

@[simp]
theorem payloadKey_ne_blockKey (tenant otherTenant : String) (identifier other : ContentId) :
    payloadKey tenant identifier ≠ (tenantBlocks otherTenant).blockKey other :=
  (blockKey_ne_payloadKey otherTenant tenant other identifier).symm

theorem contains_blockKey (tenant : String) (identifier : ContentId) :
    messageBlocks.scope.range.contains ((tenantBlocks tenant).blockKey identifier) = true :=
  Scope.contains_of_contains_child (Scope.contains_keyOf _ _)

theorem contains_payloadKey (tenant : String) (identifier : ContentId) :
    payloadScope.range.contains (payloadKey tenant identifier) = true :=
  Scope.contains_of_contains_child (Scope.contains_keyOf _ _)

theorem index_not_contains_blockKey (tenant : String) (identifier : ContentId) :
    messageIndex.root.range.contains ((tenantBlocks tenant).blockKey identifier) = false :=
  Scope.root.not_contains_of_childNamed_ne (show "messages" ≠ "indexes" by decide)
    (contains_blockKey tenant identifier)

theorem index_not_contains_payloadKey (tenant : String) (identifier : ContentId) :
    messageIndex.root.range.contains (payloadKey tenant identifier) = false :=
  Scope.root.not_contains_of_childNamed_ne (show "encoded-data" ≠ "indexes" by decide)
    (contains_payloadKey tenant identifier)

/-- The change that writes an inline payload, or that removes an earlier one. -/
def payloadChange (tenant : String) (identifier : ContentId) : Option String → Change
  | some payload => .put (payloadKey tenant identifier) (Text.bytes payload)
  | none => .delete (payloadKey tenant identifier)

theorem apply_payloadChange (contents : Contents) (tenant : String) (identifier : ContentId)
    (payload : Option String) (key : Bytes) :
    (contents.apply (payloadChange tenant identifier payload)).find? key =
      if key = payloadKey tenant identifier then payload.map Text.bytes
      else contents.find? key := by
  cases payload with
  | none => rw [payloadChange, Contents.apply, OrderedMap.find?_erase, Option.map_none]
  | some payload => rw [payloadChange, Contents.apply, OrderedMap.find?_insert, Option.map_some]

/-- The batch that writes a message. -/
theorem writeChanges_encode (tenant : String) (message : Json) :
    writeChanges tenant (Message.encode message) =
      .ok [.put ((tenantBlocks tenant).blockKey (Message.encode message).identifier)
          (Message.encode message).content,
        payloadChange tenant (Message.encode message).identifier
          (Message.encode message).payload] := by
  rw [writeChanges, BlockPartition.putChange, Message.verify_encode]
  cases (Message.encode message).payload <;> rfl

/-- The contents hold the blocks and the inline payloads of a catalog. -/
structure KeepsBlocks (contents : Contents) (catalog : MessageCatalog) : Prop where
  /-- Every message has its block. -/
  content (tenant : String) (identifier : ContentId) :
    contents.find? ((tenantBlocks tenant).blockKey identifier) =
      (catalog.find? [tenant, identifier.toText]).map StoredMessage.content
  /-- The messages with an inline payload have it, and no others. -/
  payload (tenant : String) (identifier : ContentId) :
    contents.find? (payloadKey tenant identifier) =
      (catalog.find? [tenant, identifier.toText]).bind fun stored => stored.payload.map Text.bytes

namespace KeepsBlocks

variable {contents after : Contents} {catalog : MessageCatalog}

theorem empty : KeepsBlocks .empty .empty where
  content _ _ := rfl
  payload _ _ := rfl

/-- Only keys outside the index count. -/
theorem of_frame (keeps : KeepsBlocks contents catalog)
    (frame : ∀ key, messageIndex.root.range.contains key = false →
      after.find? key = contents.find? key) :
    KeepsBlocks after catalog where
  content tenant identifier := by
    rw [frame _ (index_not_contains_blockKey tenant identifier), keeps.content]
  payload tenant identifier := by
    rw [frame _ (index_not_contains_payloadKey tenant identifier), keeps.payload]

theorem key_eq_iff {tenant otherTenant : String} {identifier other : ContentId} :
    [otherTenant, other.toText] = [tenant, identifier.toText] ↔
      otherTenant = tenant ∧ other = identifier := by
  simp [ContentId.toText_inj]

theorem put (keeps : KeepsBlocks contents catalog) (tenant : String) (message : Json)
    (properties : Properties) {batch : Batch}
    (planned : writeChanges tenant (Message.encode message) = .ok batch) :
    KeepsBlocks (contents.applyAll batch)
      (catalog.insert [tenant, (Message.encode message).identifier.toText]
        (.of message properties)) := by
  rw [writeChanges_encode] at planned
  cases planned
  constructor
  · intro otherTenant other
    rw [Contents.applyAll_cons, Contents.applyAll_cons, Contents.applyAll_nil, apply_payloadChange,
      if_neg (blockKey_ne_payloadKey _ _ _ _), Contents.apply, OrderedMap.find?_insert,
      OrderedMap.find?_insert, keeps.content]
    simp only [blockKey_inj, key_eq_iff]
    split <;> rfl
  · intro otherTenant other
    rw [Contents.applyAll_cons, Contents.applyAll_cons, Contents.applyAll_nil, apply_payloadChange,
      Contents.apply, OrderedMap.find?_insert, if_neg (payloadKey_ne_blockKey _ _ _ _),
      OrderedMap.find?_insert, keeps.payload]
    simp only [payloadKey_inj, key_eq_iff]
    split <;> rfl

theorem delete (keeps : KeepsBlocks contents catalog) (tenant : String) (identifier : ContentId) :
    KeepsBlocks (contents.applyAll (deleteChanges tenant identifier))
      (catalog.erase [tenant, identifier.toText]) := by
  constructor
  · intro otherTenant other
    simp only [deleteChanges, BlockPartition.deleteChange, Contents.applyAll_cons,
      Contents.applyAll_nil, Contents.apply, OrderedMap.find?_erase, blockKey_ne_payloadKey,
      if_false, blockKey_inj, key_eq_iff, keeps.content]
    split <;> rfl
  · intro otherTenant other
    simp only [deleteChanges, BlockPartition.deleteChange, Contents.applyAll_cons,
      Contents.applyAll_nil, Contents.apply, OrderedMap.find?_erase, payloadKey_ne_blockKey,
      if_false, payloadKey_inj, key_eq_iff, keeps.payload]
    split <;> rfl

theorem clear (contents : Contents) : KeepsBlocks (contents.applyAll clearChanges) .empty := by
  constructor
  · intro tenant identifier
    simp [clearChanges, BlockPartition.clearChange, Contents.apply, OrderedMap.find?_keepIf,
      contains_blockKey]
  · intro tenant identifier
    simp [clearChanges, BlockPartition.clearChange, Contents.apply, OrderedMap.find?_keepIf,
      contains_payloadKey]

end KeepsBlocks

/-- The contents give the message that the catalog binds. -/
theorem loadFrom_eq {contents : Contents} {catalog : MessageCatalog}
    (kept : KeepsBlocks contents catalog) (tenant : String) (identifier : ContentId) :
    loadFrom contents tenant identifier = catalog.load? tenant identifier.toText := by
  rw [loadFrom, kept.content, kept.payload, MessageCatalog.load?]
  cases catalog.find? [tenant, identifier.toText] with
  | none => rfl
  | some stored =>
      rw [Option.map_some, Option.bind_some]
      cases payload : stored.payload <;> simp [StoredMessage.load, payload]

/-- No change of a message's block or payload touches the index. -/
theorem avoids_writeChanges {tenant : String} {message : Json} {batch : Batch}
    (planned : writeChanges tenant (Message.encode message) = .ok batch) :
    batch.Avoids messageIndex.root.range := by
  rw [writeChanges_encode] at planned
  cases planned
  intro change member key contained touches
  simp only [List.mem_cons, List.not_mem_nil, or_false] at member
  rcases member with rfl | rfl
  · cases touches
    rw [index_not_contains_blockKey] at contained
    cases contained
  · have isPayload : payloadKey tenant (Message.encode message).identifier = key := by
      cases payload : (Message.encode message).payload <;> rw [payload] at touches <;> exact touches
    rw [← isPayload, index_not_contains_payloadKey] at contained
    cases contained

theorem avoids_deleteChanges (tenant : String) (identifier : ContentId) :
    Batch.Avoids (deleteChanges tenant identifier) messageIndex.root.range := by
  intro change member key contained touches
  simp only [deleteChanges, List.mem_cons, List.not_mem_nil, or_false] at member
  rcases member with rfl | rfl
  · cases touches
    rw [index_not_contains_blockKey] at contained
    cases contained
  · cases touches
    rw [index_not_contains_payloadKey] at contained
    cases contained

end MessageStore

end TenantStore
