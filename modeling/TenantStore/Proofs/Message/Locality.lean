import Mathlib.Data.List.Basic
import Mathlib.Tactic.Common
import TenantStore.Message.Repair
import TenantStore.Proofs.Block.Listing
import TenantStore.Proofs.Index.Locality

/-!
# What a message store looks at and what it changes

Blocks, inline payloads and index entries of a tenant lie in the tenant's parts of three partitions.
Every operation on behalf of a tenant, a repair included, looks at these parts only and changes
nothing outside them, in one database and in two.
-/

namespace TenantStore

/-- A listing reads the identifiers of the partition. -/
theorem BlockPartition.identifiers_eq_read (partition : BlockPartition) (context : Context) :
    partition.identifiers context =
      Database.read context fun contents => .ok (partition.identifiersIn contents) := by
  funext database
  change (partition.identifiers context).on database = _
  rw [on_identifiers]
  change _ = (database.ready context >>= fun _ => _, database)
  cases database.ready context <;> rfl

theorem BlockPartition.identifiersIn_congr {partition : BlockPartition} {own : Bytes → Prop}
    {first second : Contents} (alike : Contents.BindAlike own first second)
    (inside : partition.scope.range.LiesIn own) :
    partition.identifiersIn first = partition.identifiersIn second := by
  rw [identifiersIn, identifiersIn, alike.scan_eq inside]

/-- The databases bind a key alike if both of them do. -/
instance : Keyed MessageHandles Bytes where
  Bound _ := Option Bytes × Option Bytes
  Mode := Bool × (Bool × Medium) × Bool × Medium
  bound handles key := (handles.blocks.contents.find? key, handles.index.contents.find? key)
  mode handles :=
    (handles.isAtomic, (handles.blocks.isOpen, handles.blocks.medium), handles.index.isOpen,
      handles.index.medium)

namespace MessageHandles

variable {α : Type} {own : Bytes → Prop} {first second : MessageHandles}

theorem agreeOn_iff : AgreeOn own first second ↔
    first.isAtomic = second.isAtomic ∧ AgreeOn own first.blocks second.blocks ∧
      AgreeOn own first.index second.index := by
  constructor
  · intro agree
    rcases Prod.mk.inj agree.mode with ⟨sameLayout, modes⟩
    rcases Prod.mk.inj modes with ⟨blocksMode, indexMode⟩
    refine ⟨sameLayout, ⟨blocksMode, fun key isOwn => ?_⟩, indexMode, fun key isOwn => ?_⟩
    · exact congrArg Prod.fst (agree.bound key isOwn)
    · exact congrArg Prod.snd (agree.bound key isOwn)
  · rintro ⟨sameLayout, blocks, index⟩
    refine ⟨?_, fun key isOwn => ?_⟩
    · exact Prod.ext sameLayout (Prod.ext blocks.mode index.mode)
    · exact Prod.ext (blocks.bound key isOwn) (index.bound key isOwn)

theorem dependsOn_onBlocks {operation : StoreM Database α} (dependsOn : operation.DependsOn own) :
    (onBlocks operation).DependsOn own := by
  intro first second agree
  rw [agreeOn_iff] at agree
  rcases agree with ⟨sameLayout, blocks, index⟩
  rcases dependsOn _ _ blocks with ⟨same, after⟩
  cases first with
  | shared database =>
      cases second with
      | shared other => exact ⟨same, agreeOn_iff.2 ⟨rfl, after, after⟩⟩
      | separate otherBlocks otherIndex => cases sameLayout
  | separate database databaseIndex =>
      cases second with
      | shared other => cases sameLayout
      | separate otherBlocks otherIndex => exact ⟨same, agreeOn_iff.2 ⟨rfl, after, index⟩⟩

theorem dependsOn_onIndex {operation : StoreM Database α} (dependsOn : operation.DependsOn own) :
    (onIndex operation).DependsOn own := by
  intro first second agree
  rw [agreeOn_iff] at agree
  rcases agree with ⟨sameLayout, blocks, index⟩
  rcases dependsOn _ _ index with ⟨same, after⟩
  cases first with
  | shared database =>
      cases second with
      | shared other => exact ⟨same, agreeOn_iff.2 ⟨rfl, after, after⟩⟩
      | separate otherBlocks otherIndex => cases sameLayout
  | separate database databaseIndex =>
      cases second with
      | shared other => cases sameLayout
      | separate otherBlocks otherIndex => exact ⟨same, agreeOn_iff.2 ⟨rfl, blocks, after⟩⟩

theorem isLocalTo_onBlocks {operation : StoreM Database α} (isLocal : operation.IsLocalTo own) :
    (onBlocks operation).IsLocalTo own where
  dependsOn := dependsOn_onBlocks isLocal.dependsOn
  leaves handles := by
    cases handles with
    | shared database => exact agreeOn_iff.2 ⟨rfl, isLocal.leaves database, isLocal.leaves database⟩
    | separate blocks index => exact agreeOn_iff.2 ⟨rfl, isLocal.leaves blocks, .refl _ index⟩

theorem isLocalTo_onIndex {operation : StoreM Database α} (isLocal : operation.IsLocalTo own) :
    (onIndex operation).IsLocalTo own where
  dependsOn := dependsOn_onIndex isLocal.dependsOn
  leaves handles := by
    cases handles with
    | shared database => exact agreeOn_iff.2 ⟨rfl, isLocal.leaves database, isLocal.leaves database⟩
    | separate blocks index => exact agreeOn_iff.2 ⟨rfl, .refl _ blocks, isLocal.leaves index⟩

theorem dependsOn_ite_isAtomic {once inSteps : StoreM MessageHandles α}
    (shared : once.DependsOn own) (separate : inSteps.DependsOn own) :
    ((get : StoreM MessageHandles MessageHandles) >>= fun handles =>
      if handles.isAtomic then once else inSteps).DependsOn own := by
  intro first second agree
  rw [StoreM.on_bind, StoreM.on_bind, StoreM.on_get, StoreM.on_get]
  simp only [(agreeOn_iff.1 agree).1]
  split
  · exact shared first second agree
  · exact separate first second agree

/-- Both layouts are seen alike in states that agree, so an operation may look at the layout. -/
theorem isLocalTo_ite_isAtomic {once inSteps : StoreM MessageHandles α}
    (shared : once.IsLocalTo own) (separate : inSteps.IsLocalTo own) :
    ((get : StoreM MessageHandles MessageHandles) >>= fun handles =>
      if handles.isAtomic then once else inSteps).IsLocalTo own where
  dependsOn := dependsOn_ite_isAtomic shared.dependsOn separate.dependsOn
  leaves handles := by
    rw [StoreM.on_bind, StoreM.on_get]
    cases handles with
    | shared database => exact shared.leaves (.shared database)
    | separate blocks index => exact separate.leaves (.separate blocks index)

end MessageHandles

namespace MessageStore

open MessageHandles

/-- The names of the partitions of a message store. -/
def partitions : List String := ["messages", "encoded-data", "indexes"]

theorem liesIn_tenantBlocks (tenant : String) :
    (tenantBlocks tenant).scope.range.LiesIn (InParts partitions tenant) :=
  liesIn_inParts (show "messages" ∈ partitions by decide) tenant

theorem liesIn_payloads (tenant : String) :
    (payloadScope.childNamed tenant).range.LiesIn (InParts partitions tenant) :=
  liesIn_inParts (show "encoded-data" ∈ partitions by decide) tenant

theorem liesIn_index (tenant : String) :
    (messageIndex.root.childNamed tenant).range.LiesIn (InParts partitions tenant) :=
  liesIn_inParts (show "indexes" ∈ partitions by decide) tenant

section Tenant

variable {context : Context} {tenant : String}

theorem own_blockKey (tenant : String) (identifier : ContentId) :
    InParts partitions tenant ((tenantBlocks tenant).blockKey identifier) :=
  Scope.own_key (liesIn_tenantBlocks tenant) _

theorem own_payloadKey (tenant : String) (identifier : ContentId) :
    InParts partitions tenant (payloadKey tenant identifier) :=
  Scope.own_key (liesIn_payloads tenant) _

theorem staysIn_writeChanges {message : EncodedMessage} {batch : Batch}
    (planned : writeChanges tenant message = .ok batch) :
    batch.StaysIn (InParts partitions tenant) := by
  rw [writeChanges, BlockPartition.putChange] at planned
  cases verified : message.identifier.verify message.content with
  | error problem =>
      simp only [verified] at planned
      cases planned
  | ok _ =>
      simp only [verified] at planned
      cases payload : message.payload with
      | none =>
          simp only [payload] at planned
          cases planned
          exact .put (own_blockKey _ _) _ (.delete (own_payloadKey _ _) .nil)
      | some text =>
          simp only [payload] at planned
          cases planned
          exact .put (own_blockKey _ _) _ (.put (own_payloadKey _ _) _ .nil)

theorem staysIn_deleteChanges (tenant : String) (identifier : ContentId) :
    (deleteChanges tenant identifier).StaysIn (InParts partitions tenant) :=
  .delete (own_blockKey _ _) (.delete (own_payloadKey _ _) .nil)

theorem loadFrom_congr {first second : Contents}
    (alike : Contents.BindAlike (InParts partitions tenant) first second) (identifier : ContentId) :
    loadFrom first tenant identifier = loadFrom second tenant identifier := by
  rw [loadFrom, loadFrom, alike _ (own_blockKey _ _), alike _ (own_payloadKey _ _)]

theorem isLocalTo_load (identifier : ContentId) :
    (load context tenant identifier).IsLocalTo (InParts partitions tenant) :=
  isLocalTo_onBlocks (Database.isLocalTo_read fun _ _ alike => loadFrom_congr alike identifier)

theorem isLocalTo_writeBlock (message : EncodedMessage) :
    (writeBlock context tenant message).IsLocalTo (InParts partitions tenant) := by
  apply StoreM.IsLocalTo.ofExcept_bind
  intro batch planned
  exact isLocalTo_onBlocks (Database.isLocalTo_write (staysIn_writeChanges planned))

theorem isLocalTo_removeBlock (identifier : ContentId) :
    (removeBlock context tenant identifier).IsLocalTo (InParts partitions tenant) :=
  isLocalTo_onBlocks (Database.isLocalTo_write (staysIn_deleteChanges tenant identifier))

theorem isLocalTo_putAtOnce (message : EncodedMessage) (properties : Properties) :
    (putAtOnce context tenant message properties).IsLocalTo (InParts partitions tenant) := by
  apply StoreM.IsLocalTo.ofExcept_bind
  intro batch planned
  apply isLocalTo_onIndex
  exact ItemIndex.isLocalTo_putWith context (liesIn_index tenant) _ properties
    (staysIn_writeChanges planned)

theorem isLocalTo_putInSteps (message : EncodedMessage) (properties : Properties) :
    (putInSteps context.steady tenant message properties).IsLocalTo
      (InParts partitions tenant) := by
  have looks : (onBlocks ((tenantBlocks tenant).has context message.identifier)).IsLocalTo
      (InParts partitions tenant) := by
    apply isLocalTo_onBlocks
    apply Database.isLocalTo_read
    intro first second alike
    rw [alike.contains_eq (own_blockKey tenant message.identifier)]
  have indexes := isLocalTo_onIndex (ItemIndex.isLocalTo_put context (liesIn_index tenant)
    message.identifier.toText properties)
  apply looks.bind
  intro existed
  apply (isLocalTo_writeBlock message).bind
  intro _
  apply indexes.attempt.bind
  intro indexed
  cases indexed with
  | ok _ => exact StoreM.isLocalTo_pure ()
  | error problem =>
      cases existed with
      | true => exact StoreM.isLocalTo_throw problem
      | false =>
          exact (isLocalTo_removeBlock message.identifier).attempt.bind fun _ =>
            StoreM.isLocalTo_throw problem

theorem isLocalTo_put (message : Json) (properties : Properties) :
    (put context tenant message properties).IsLocalTo (InParts partitions tenant) := by
  have atOnce : (putAtOnce context tenant (Message.encode message) properties).IsLocalTo
      (InParts partitions tenant) := isLocalTo_putAtOnce _ properties
  have inSteps : (putInSteps context.steady tenant (Message.encode message) properties).IsLocalTo
      (InParts partitions tenant) := isLocalTo_putInSteps _ properties
  apply StoreM.IsLocalTo.ofExcept_bind
  intro _ _
  cases properties.isEmpty with
  | true => exact StoreM.isLocalTo_throw .emptyIndexSet
  | false =>
      apply isLocalTo_ite_isAtomic
      · exact atOnce.bind fun _ => StoreM.isLocalTo_pure _
      · exact inSteps.bind fun _ => StoreM.isLocalTo_pure _

theorem isLocalTo_find? (identifier : String) :
    (find? context tenant identifier).IsLocalTo (InParts partitions tenant) := by
  apply StoreM.IsLocalTo.ofExcept_bind
  intro parsed _
  exact isLocalTo_load parsed

theorem isLocalTo_delete (identifier : String) :
    (delete context tenant identifier).IsLocalTo (InParts partitions tenant) := by
  apply StoreM.IsLocalTo.ofExcept_bind
  intro parsed _
  have atOnce := isLocalTo_onIndex (ItemIndex.isLocalTo_deleteWith context (liesIn_index tenant)
    parsed.toText (staysIn_deleteChanges tenant parsed))
  have index := isLocalTo_onIndex (ItemIndex.isLocalTo_delete context (liesIn_index tenant)
    parsed.toText)
  apply isLocalTo_ite_isAtomic
  · exact atOnce.bind fun _ => StoreM.isLocalTo_pure ()
  · exact index.bind fun _ => isLocalTo_removeBlock parsed

theorem isLocalTo_loadItems (items : List IndexedItem) :
    (loadItems context tenant items).IsLocalTo (InParts partitions tenant) := by
  have each (item : IndexedItem) : (StoreM.ofExcept (ContentId.parse item.identifier) >>=
      load context tenant).IsLocalTo (InParts partitions tenant) := by
    apply StoreM.IsLocalTo.ofExcept_bind
    intro identifier _
    exact isLocalTo_load identifier
  exact (StoreM.IsLocalTo.mapM each).bind fun _ => StoreM.isLocalTo_pure _

theorem isLocalTo_query (filters : List Filter) (sort : Option MessageSort)
    (pagination : Option Pagination) :
    (query context tenant filters sort pagination).IsLocalTo (InParts partitions tenant) := by
  apply (isLocalTo_onIndex (ItemIndex.isLocalTo_query context (liesIn_index tenant) filters _)).bind
  intro page
  apply StoreM.IsLocalTo.ofExcept_bind
  intro shown _
  exact (isLocalTo_loadItems shown.1).bind fun _ => StoreM.isLocalTo_pure _

theorem isLocalTo_removeOrphan (identifier : ContentId) :
    (removeOrphan context tenant identifier).IsLocalTo (InParts partitions tenant) := by
  have removes := staysIn_deleteChanges tenant identifier
  apply isLocalTo_ite_isAtomic
  · apply isLocalTo_onBlocks
    apply Database.isLocalTo_update
    · intro first second alike
      rw [alike.contains_eq (ItemIndex.own_reverseKey (liesIn_index tenant) identifier.toText)]
    · intro contents result batch planned
      split at planned
      · cases planned
        exact .nil
      · cases planned
        exact removes
  · apply (isLocalTo_onIndex (ItemIndex.isLocalTo_properties? context (liesIn_index tenant)
      identifier.toText)).bind
    intro properties?
    cases properties? with
    | some properties => exact StoreM.isLocalTo_pure false
    | none =>
        exact (isLocalTo_onBlocks (Database.isLocalTo_write removes)).bind fun _ =>
          StoreM.isLocalTo_pure true

theorem holdsBlock_congr {first second : Contents}
    (alike : Contents.BindAlike (InParts partitions tenant) first second) (item : String) :
    holdsBlock first tenant item = holdsBlock second tenant item := by
  rw [holdsBlock, holdsBlock, blockKey?]
  cases (ContentId.parse item).toOption with
  | none => rfl
  | some identifier => exact alike.contains_eq (own_blockKey tenant identifier)

theorem isLocalTo_removeDangling (item : String) :
    (removeDangling context tenant item).IsLocalTo (InParts partitions tenant) := by
  have index := isLocalTo_onIndex (ItemIndex.isLocalTo_delete context (liesIn_index tenant) item)
  apply isLocalTo_ite_isAtomic
  · apply isLocalTo_onBlocks
    apply Database.isLocalTo_update
    · intro first second alike
      rw [holdsBlock_congr alike, ItemIndex.deleteBatch?_congr (liesIn_index tenant) alike]
    · intro contents result batch planned
      split at planned
      · cases planned
        exact .nil
      · cases isRemoval : messageIndex.deleteBatch? contents tenant item with
        | error problem =>
            rw [isRemoval] at planned
            cases planned
        | ok removal? =>
            rw [isRemoval] at planned
            cases planned
            exact ItemIndex.staysIn_deleteBatch? (liesIn_index tenant) isRemoval
  · have looks : (onBlocks (Database.read context fun contents =>
        .ok (holdsBlock contents tenant item))).IsLocalTo (InParts partitions tenant) := by
      apply isLocalTo_onBlocks
      apply Database.isLocalTo_read
      intro first second alike
      rw [holdsBlock_congr alike]
    cases (blockKey? tenant item).isSome with
    | false => exact index
    | true =>
        apply looks.bind
        intro present
        cases present with
        | true => exact StoreM.isLocalTo_pure false
        | false => exact index

/-- The removals that a repair makes are local if each of them is. -/
theorem isLocalTo_removed {α : Type} {own : Bytes → Prop} (candidates : List α)
    {remove : α → StoreM MessageHandles Bool}
    (each : ∀ candidate, (remove candidate).IsLocalTo own) :
    (removed candidates remove).IsLocalTo own := by
  have outcomes (candidate : α) :
      (remove candidate >>= fun outcome => pure (candidate, outcome)).IsLocalTo own :=
    (each candidate).bind fun _ => StoreM.isLocalTo_pure _
  exact (StoreM.IsLocalTo.mapM outcomes).bind fun _ => StoreM.isLocalTo_pure _

theorem isLocalTo_reconcile : (reconcile context tenant).IsLocalTo (InParts partitions tenant) := by
  apply (isLocalTo_onIndex (ItemIndex.isLocalTo_identifiers context (liesIn_index tenant))).bind
  intro indexed
  have lists : (onBlocks ((tenantBlocks tenant).identifiers context)).IsLocalTo
      (InParts partitions tenant) := by
    rw [BlockPartition.identifiers_eq_read]
    apply isLocalTo_onBlocks
    apply Database.isLocalTo_read
    intro first second alike
    rw [BlockPartition.identifiersIn_congr alike (liesIn_tenantBlocks tenant)]
  apply lists.bind
  intro stored
  apply (isLocalTo_removed _ isLocalTo_removeOrphan).bind
  intro orphaned
  apply (isLocalTo_removed _ isLocalTo_removeDangling).bind
  intro dangling
  exact StoreM.isLocalTo_pure _

end Tenant

section Databases

variable {own : Bytes → Prop}

theorem dependsOn_close : close.DependsOn own :=
  (dependsOn_onBlocks Database.dependsOn_close).bind fun _ =>
    dependsOn_onIndex Database.dependsOn_close

theorem dependsOn_reopen : reopen.DependsOn own :=
  (dependsOn_onBlocks Database.dependsOn_reopen).bind fun _ =>
    dependsOn_onIndex Database.dependsOn_reopen

theorem dependsOn_clear (context : Context) : (clear context).DependsOn own := by
  apply dependsOn_ite_isAtomic
  · exact dependsOn_onBlocks (Database.dependsOn_write context _)
  · exact (dependsOn_onBlocks (Database.dependsOn_write context _)).bind fun _ =>
      dependsOn_onIndex (Database.dependsOn_write context _)

end Databases

/-- A store is cleared within its partitions. -/
theorem isLocalTo_clear (context : Context) :
    (clear context).IsLocalTo (InPartitions partitions) := by
  have blocks : clearChanges.StaysIn (InPartitions partitions) :=
    .deleteRange (liesIn_inPartitions (by decide))
      (.deleteRange (liesIn_inPartitions (by decide)) .nil)
  have index : Batch.StaysIn [messageIndex.clearChange] (InPartitions partitions) :=
    .deleteRange (liesIn_inPartitions (by decide)) .nil
  apply isLocalTo_ite_isAtomic
  · exact isLocalTo_onBlocks (Database.isLocalTo_write (blocks.append index))
  · exact (isLocalTo_onBlocks (Database.isLocalTo_write blocks)).bind fun _ =>
      isLocalTo_onIndex (Database.isLocalTo_write index)

end MessageStore

end TenantStore
