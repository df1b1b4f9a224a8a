import Mathlib.Data.List.Basic
import Mathlib.Tactic.Common
import TenantStore.Proofs.Index.Keys
import TenantStore.Proofs.Payload.Catalog
import TenantStore.Proofs.Payload.Delivery

/-!
# What a payload store holds

Blocks and references lie in scopes of their own.  The contents keep a catalog if each payload has
exactly the blocks of its tree in its partition, and a marker for each of its references, and if
nothing else lies in either scope.  A reference that is added or dropped touches one marker, and one
partition if the payload comes in or goes.
-/

namespace TenantStore

namespace PayloadStore

open ReferenceLedger (markerKey)

theorem path_partitionOf (tenant : String) (payload : ContentId) :
    (partitionOf tenant payload).scope.path =
      [Text.bytes "data", Text.bytes tenant, Text.bytes payload.toText] := rfl

theorem path_payloadScope (tenant : String) (payload : ContentId) :
    (ReferenceLedger.payloadScope tenant payload).path =
      [Text.bytes "references", Text.bytes tenant, Text.bytes payload.toText] := rfl

theorem blockKey_eq_encode (tenant : String) (payload identifier : ContentId) :
    (partitionOf tenant payload).blockKey identifier =
      Key.encode [Text.bytes "data", Text.bytes tenant, Text.bytes payload.toText,
        identifier.toBytes] := by
  rw [BlockPartition.blockKey, Scope.key, Scope.keyOf_eq_encode, path_partitionOf]
  rfl

theorem markerKey_eq_encode (tenant : String) (payload : ContentId) (message : String) :
    markerKey tenant payload message =
      Key.encode [Text.bytes "references", Text.bytes tenant, Text.bytes payload.toText,
        Text.bytes message] := by
  rw [markerKey, Scope.key, Scope.keyOf_eq_encode, path_payloadScope]
  rfl

variable {tenant other message otherMessage : String}
  {payload otherPayload identifier otherIdentifier : ContentId}

@[simp]
theorem blockKey_inj :
    (partitionOf tenant payload).blockKey identifier =
        (partitionOf other otherPayload).blockKey otherIdentifier ↔
      tenant = other ∧ payload = otherPayload ∧ identifier = otherIdentifier := by
  rw [blockKey_eq_encode, blockKey_eq_encode, Key.encode_inj]
  simp

@[simp]
theorem markerKey_inj :
    markerKey tenant payload message = markerKey other otherPayload otherMessage ↔
      tenant = other ∧ payload = otherPayload ∧ message = otherMessage := by
  rw [markerKey_eq_encode, markerKey_eq_encode, Key.encode_inj]
  simp

@[simp]
theorem blockKey_ne_markerKey :
    (partitionOf tenant payload).blockKey identifier ≠ markerKey other otherPayload message := by
  have different : "data" ≠ "references" := by decide
  rw [blockKey_eq_encode, markerKey_eq_encode, ne_eq, Key.encode_inj]
  simp [different]

@[simp]
theorem markerKey_ne_blockKey :
    markerKey other otherPayload message ≠ (partitionOf tenant payload).blockKey identifier :=
  blockKey_ne_markerKey.symm

@[simp]
theorem contains_partitionOf_iff :
    (partitionOf tenant payload).scope.range.contains
      ((partitionOf other otherPayload).blockKey identifier) =
        true ↔
      other = tenant ∧ otherPayload = payload := by
  rw [Scope.contains_range_iff, Scope.location, path_partitionOf, blockKey_eq_encode,
    Key.encode_isPrefix_iff]
  simp [List.cons_prefix_cons, eq_comm]

@[simp]
theorem contains_payloadScope_iff :
    (ReferenceLedger.payloadScope tenant payload).range.contains
      (markerKey other otherPayload message) = true ↔
      other = tenant ∧ otherPayload = payload := by
  rw [Scope.contains_range_iff, Scope.location, path_payloadScope, markerKey_eq_encode,
    Key.encode_isPrefix_iff]
  simp [List.cons_prefix_cons, eq_comm]

@[simp]
theorem partitionOf_not_contains_markerKey :
    (partitionOf tenant payload).scope.range.contains (markerKey other otherPayload message) =
      false := by
  have different : "data" ≠ "references" := by decide
  rw [Bool.eq_false_iff, ne_eq, Scope.contains_range_iff, Scope.location, path_partitionOf,
    markerKey_eq_encode, Key.encode_isPrefix_iff]
  simp [List.cons_prefix_cons, different]

@[simp]
theorem payloadBlocks_contains_blockKey :
    payloadBlocks.scope.range.contains ((partitionOf tenant payload).blockKey identifier) = true :=
  Scope.contains_of_contains_child (Scope.contains_of_contains_child (Scope.contains_keyOf _ _))

@[simp]
theorem references_contains_markerKey :
    ReferenceLedger.scope.range.contains (markerKey tenant payload message) = true :=
  Scope.contains_of_contains_child (Scope.contains_of_contains_child (Scope.contains_keyOf _ _))

/-- Blocks and references share no key. -/
theorem references_not_contains {key : Bytes}
    (contained : payloadBlocks.scope.range.contains key = true) :
    ReferenceLedger.scope.range.contains key = false :=
  Scope.root.not_contains_of_ne (by decide) contained

theorem payloadBlocks_not_contains {key : Bytes}
    (contained : ReferenceLedger.scope.range.contains key = true) :
    payloadBlocks.scope.range.contains key = false :=
  Scope.root.not_contains_of_ne (by decide) contained

/-- Whether a payload with this root can be laid out in these blocks. -/
structure Makes (layout : PayloadLayout) (blocks : List Block) (payload : ContentId)
    (content : Bytes) : Prop where
  buildable : layout.IsBuildable
  root : (layout.tree content).root = payload
  small : content.length < UInt64.size
  among : ∀ block ∈ (layout.tree content).blocks, block ∈ blocks

/-- The contents keep a catalog of payloads that are laid out in some of these blocks. -/
structure Keeps (layout : PayloadLayout) (blocks : List Block) (contents : Contents)
    (catalog : PayloadCatalog) : Prop where
  makes {tenant : String} {payload : ContentId} {content : Bytes} :
    catalog.content? tenant payload = some content → Makes layout blocks payload content
  block (tenant : String) (payload identifier : ContentId) :
    contents.find? ((partitionOf tenant payload).blockKey identifier) =
      (catalog.content? tenant payload).bind fun content =>
        blockIn (layout.tree content).blocks identifier
  marker (tenant : String) (payload : ContentId) (message : String) :
    contents.find? (markerKey tenant payload message) =
      ((catalog.references tenant payload).find? message).map fun _ => []
  /-- There are no keys but those of blocks where the payloads lie. -/
  onlyBlocks (key : Bytes) : payloadBlocks.scope.range.contains key = true →
    contents.contains key = true → ∃ tenant payload identifier, key =
      (partitionOf tenant payload).blockKey identifier
  /-- There are no keys but markers where the references lie. -/
  onlyMarkers (key : Bytes) : ReferenceLedger.scope.range.contains key = true →
    contents.contains key = true → ∃ tenant payload message, key = markerKey tenant payload message

namespace Keeps

variable {layout : PayloadLayout} {blocks : List Block} {contents : Contents}
  {catalog : PayloadCatalog} {content : Bytes}

theorem empty : Keeps layout blocks .empty .empty where
  makes := by
    intro tenant payload content impossible
    cases impossible
  block _ _ _ := rfl
  marker _ _ _ := rfl
  onlyBlocks := by
    intro key _ impossible
    cases impossible
  onlyMarkers := by
    intro key _ impossible
    cases impossible

/-- The blocks of a payload that is kept are those of the one that is put again. -/
theorem eq_of_content? (keeps : Keeps layout blocks contents catalog)
    (distinct : AreCollisionFree blocks) (makes : Makes layout blocks payload content)
    {kept : Bytes} (held : catalog.content? tenant payload = some kept) : kept = content := by
  have keptMakes := keeps.makes held
  exact layout.eq_of_root distinct keptMakes.small keptMakes.among makes.small makes.among
    (keptMakes.root.trans makes.root.symm)

/-- A payload is put: its blocks are written, and a marker. -/
theorem put (keeps : Keeps layout blocks contents catalog) (distinct : AreCollisionFree blocks)
    (makes : Makes layout blocks payload content) (tenant message : String) :
    Keeps layout blocks
      (contents.applyAll ((partitionOf tenant payload).puts (layout.tree content).blocks ++
        [ReferenceLedger.addChange tenant payload message]))
      (catalog.refer tenant message payload content) where
  makes := by
    intro other otherPayload otherContent kept
    rw [PayloadCatalog.content?_refer] at kept
    split at kept
    · rename_i same
      cases kept
      rw [same.2]
      exact makes
    · exact keeps.makes kept
  block := by
    intro other otherPayload identifier
    simp only [Contents.applyAll_append, Contents.applyAll_cons, Contents.applyAll_nil,
      Contents.apply, ReferenceLedger.addChange, OrderedMap.find?_insert, blockKey_ne_markerKey,
      if_false, PayloadCatalog.content?_refer]
    split
    · rename_i same
      rw [same.1, same.2, BlockPartition.find?_applyAll_puts (distinct.subset makes.among),
        keeps.block, Option.bind_some]
      cases held : catalog.content? tenant payload with
      | none => exact Option.or_none
      | some kept =>
          rw [keeps.eq_of_content? distinct makes held]
          exact Option.or_self
    · rename_i different
      rw [BlockPartition.find?_applyAll_puts_of_ne]
      · exact keeps.block other otherPayload identifier
      · intro block _ same
        rw [blockKey_inj] at same
        exact different ⟨same.1, same.2.1⟩
  marker := by
    intro other otherPayload otherMessage
    have unwritten : ∀ block ∈ (layout.tree content).blocks, markerKey other otherPayload
        otherMessage ≠ (partitionOf tenant payload).blockKey block.1 :=
          fun _ _ => markerKey_ne_blockKey
    simp only [Contents.applyAll_append, Contents.applyAll_cons, Contents.applyAll_nil,
      Contents.apply, ReferenceLedger.addChange, OrderedMap.find?_insert, markerKey_inj,
      PayloadCatalog.references_refer,
      BlockPartition.find?_applyAll_puts_of_ne unwritten, keeps.marker, ← and_assoc]
    by_cases same : other = tenant ∧ otherPayload = payload
    · simp only [same, and_self, true_and, if_true, OrderedMap.find?_insert]
      split <;> rfl
    · simp only [same, false_and, if_false]
  onlyBlocks := by
    intro key contained present
    rcases Contents.contains_of_contains_applyAll present with before | ⟨value, member⟩
    · exact keeps.onlyBlocks key contained before
    · rcases List.mem_append.1 member with isBlock | isMarker
      · rcases List.mem_map.1 isBlock with ⟨block, _, written⟩
        cases written
        exact ⟨tenant, payload, block.1, rfl⟩
      · cases List.mem_singleton.1 isMarker
        rw [payloadBlocks_not_contains references_contains_markerKey] at contained
        cases contained
  onlyMarkers := by
    intro key contained present
    rcases Contents.contains_of_contains_applyAll present with before | ⟨value, member⟩
    · exact keeps.onlyMarkers key contained before
    · rcases List.mem_append.1 member with isBlock | isMarker
      · rcases List.mem_map.1 isBlock with ⟨block, _, written⟩
        cases written
        rw [references_not_contains payloadBlocks_contains_blockKey] at contained
        cases contained
      · cases List.mem_singleton.1 isMarker
        exact ⟨tenant, payload, message, rfl⟩

/-- A reference is added to a payload that is kept, whose blocks need not be written again. -/
theorem refer (keeps : Keeps layout blocks contents catalog) (distinct : AreCollisionFree blocks)
    (held : catalog.content? tenant payload = some content) (message : String) :
    Keeps layout blocks (contents.applyAll [ReferenceLedger.addChange tenant payload message])
      (catalog.refer tenant message payload content) := by
  have makes := keeps.makes held
  have written :
      contents.applyAll ((partitionOf tenant payload).puts (layout.tree content).blocks) =
      contents := by
    apply OrderedMap.eq_of_find?
    intro key
    by_cases isBlock : ∃ block ∈ (layout.tree content).blocks,
        key = (partitionOf tenant payload).blockKey block.1
    · rcases isBlock with ⟨block, _, rfl⟩
      rw [BlockPartition.find?_applyAll_puts (distinct.subset makes.among), keeps.block, held]
      exact Option.or_self
    · apply BlockPartition.find?_applyAll_puts_of_ne
      intro block member same
      exact isBlock ⟨block, member, same⟩
  have put := keeps.put distinct makes tenant message
  rw [Contents.applyAll_append, written] at put
  exact put

/-- The batch that drops a reference, and with the last one the blocks. -/
def dropBatch (catalog : PayloadCatalog) (tenant message : String) (payload : ContentId) : Batch :=
  ReferenceLedger.removeChange tenant payload message ::
    if ReferenceSet.retains ((catalog.references tenant payload).erase message) then []
    else [(partitionOf tenant payload).clearChange]

theorem find?_dropBatch (contents : Contents) (key : Bytes) :
    (contents.applyAll (dropBatch catalog tenant message payload)).find? key =
      if key = markerKey tenant payload message ∨
          (partitionOf tenant payload).scope.range.contains key = true ∧
            ¬ReferenceSet.retains ((catalog.references tenant payload).erase message) = true then
        none
      else contents.find? key := by
  unfold dropBatch
  split
  · rename_i retained
    simp [ReferenceLedger.removeChange, Contents.apply, OrderedMap.find?_erase, retained]
  · rename_i unretained
    simp only [ReferenceLedger.removeChange, BlockPartition.clearChange, Contents.applyAll_cons,
      Contents.applyAll_nil, Contents.apply, OrderedMap.find?_keepIf, OrderedMap.find?_erase,
      unretained]
    by_cases isMarker : key = markerKey tenant payload message
    · simp [isMarker]
    · cases (partitionOf tenant payload).scope.range.contains key <;> simp [isMarker]

/-- A reference is dropped, and with the last one the blocks. -/
theorem drop (keeps : Keeps layout blocks contents catalog) (tenant message : String)
    (payload : ContentId) :
    Keeps layout blocks (contents.applyAll (dropBatch catalog tenant message payload))
      (catalog.drop tenant message payload) where
  makes := by
    intro other otherPayload otherContent kept
    rw [PayloadCatalog.content?_drop] at kept
    split at kept
    · cases kept
    · exact keeps.makes kept
  block := by
    intro other otherPayload identifier
    simp only [find?_dropBatch, PayloadCatalog.content?_drop, blockKey_ne_markerKey, false_or,
      contains_partitionOf_iff, and_assoc, keeps.block]
    split <;> rfl
  marker := by
    intro other otherPayload otherMessage
    simp only [find?_dropBatch, PayloadCatalog.references_drop, markerKey_inj,
      partitionOf_not_contains_markerKey, Bool.false_eq_true, false_and, or_false, ← and_assoc,
      keeps.marker]
    by_cases same : other = tenant ∧ otherPayload = payload
    · simp only [same, and_self, true_and, if_true, OrderedMap.find?_erase]
      split <;> rfl
    · simp only [same, false_and, if_false]
  onlyBlocks := by
    intro key contained present
    apply keeps.onlyBlocks key contained
    rw [OrderedMap.contains, find?_dropBatch] at present
    split at present
    · cases present
    · exact present
  onlyMarkers := by
    intro key contained present
    apply keeps.onlyMarkers key contained
    rw [OrderedMap.contains, find?_dropBatch] at present
    split at present
    · cases present
    · exact present

/-- Nothing is kept after both scopes were cleared. -/
theorem clear (contents : Contents) :
    Keeps layout blocks (contents.applyAll [payloadBlocks.clearChange, ReferenceLedger.clearChange])
      .empty := by
  have cleared (key : Bytes) (contained : payloadBlocks.scope.range.contains key = true ∨
      ReferenceLedger.scope.range.contains key = true) :
      (contents.applyAll [payloadBlocks.clearChange, ReferenceLedger.clearChange]).find? key =
        none := by
    simp only [BlockPartition.clearChange, ReferenceLedger.clearChange, Contents.applyAll_cons,
      Contents.applyAll_nil, Contents.apply, OrderedMap.find?_keepIf]
    rcases contained with isBlock | isMarker
    · simp [isBlock]
    · simp [isMarker]
  have absent (key : Bytes) (contained : payloadBlocks.scope.range.contains key = true ∨
      ReferenceLedger.scope.range.contains key = true) :
      (contents.applyAll [payloadBlocks.clearChange, ReferenceLedger.clearChange]).contains key =
        false := by
    rw [OrderedMap.contains, cleared key contained]
    rfl
  constructor
  · intro tenant payload content impossible
    cases impossible
  · intro tenant payload identifier
    exact cleared _ (.inl payloadBlocks_contains_blockKey)
  · intro tenant payload message
    exact cleared _ (.inr references_contains_markerKey)
  · intro key contained present
    rw [absent key (.inl contained)] at present
    cases present
  · intro key contained present
    rw [absent key (.inr contained)] at present
    cases present

end Keeps

end PayloadStore

end TenantStore
