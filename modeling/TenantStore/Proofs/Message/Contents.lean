import Mathlib.Data.List.Basic
import Mathlib.Tactic.Common
import TenantStore.Proofs.Message.Interruptions
import TenantStore.Proofs.Message.Locality

/-!
# What the databases of a message store hold

A catalog prescribes the entries of its messages: for each of them the block, the inline payload if
it has one, one reverse entry and one forward entry for every property.  Databases that hold these
entries and no others are determined by the catalog, however it came about.  The writes of a message
store lead from such databases to such databases: an entry that a message no longer has never stays
behind.
-/

namespace TenantStore

/-- Whether all bound keys are among these. -/
def Contents.LiesIn (contents : Contents) (own : Bytes → Prop) : Prop :=
  ∀ key, contents.contains key = true → own key

theorem Contents.liesIn_empty (own : Bytes → Prop) : LiesIn .empty own :=
  fun _ bound => by cases bound

/-- What leaves all other keys as they are binds none of them. -/
theorem Contents.LiesIn.of_agreeOn {own : Bytes → Prop} {before after : Database}
    (inside : before.contents.LiesIn own) (agree : AgreeOn (fun key => ¬own key) after before) :
    after.contents.LiesIn own := by
  intro key bound
  by_contra outside
  have same : after.contents.find? key = before.contents.find? key := agree.bound key outside
  rw [OrderedMap.contains, same] at bound
  exact outside (inside key bound)

theorem Database.preserves_liesIn {α : Type} {own : Bytes → Prop} {operation : StoreM Database α}
    (isLocal : operation.IsLocalTo own) :
    operation.Preserves fun database => database.contents.LiesIn own :=
  fun database inside => inside.of_agreeOn (isLocal.leaves database)

namespace StoredMessage

open MessageStore

/-- The entries of a message among the blocks: its block, and its inline payload if it has one. -/
def blockEntries (tenant : String) (stored : StoredMessage) : List (Bytes × Bytes) :=
  ((tenantBlocks tenant).blockKey stored.identifier, stored.content) ::
    (stored.payload.map fun payload =>
      (payloadKey tenant stored.identifier, Text.bytes payload)).toList

/-- The entries of a message in the index: its reverse entry, and a forward entry for every
property. -/
def indexEntries (tenant : String) (stored : StoredMessage) : List (Bytes × Bytes) :=
  (messageIndex.reverseKey tenant stored.identifier.toText, stored.properties.toRecord) ::
    stored.properties.toList.map fun (property, value) =>
      (messageIndex.forwardKey tenant property value stored.identifier.toText,
        IndexedItem.toRecord ⟨stored.identifier.toText, stored.properties⟩)

theorem mem_blockEntries_iff {tenant : String} {stored : StoredMessage} {key value : Bytes} :
    (key, value) ∈ stored.blockEntries tenant ↔
      key = (tenantBlocks tenant).blockKey stored.identifier ∧ value = stored.content ∨
        key = payloadKey tenant stored.identifier ∧ stored.payload.map Text.bytes = some value := by
  rw [blockEntries, List.mem_cons, Prod.mk.injEq]
  cases stored.payload with
  | none => simp
  | some payload => simp [eq_comm]

theorem mem_indexEntries_iff {tenant : String} {stored : StoredMessage} {key record : Bytes} :
    (key, record) ∈ stored.indexEntries tenant ↔
      key = messageIndex.reverseKey tenant stored.identifier.toText ∧
          record = stored.properties.toRecord ∨
        ∃ property value, stored.properties.find? property = some value ∧
          key = messageIndex.forwardKey tenant property value stored.identifier.toText ∧
            record = IndexedItem.toRecord ⟨stored.identifier.toText, stored.properties⟩ := by
  simp only [indexEntries, List.mem_cons, Prod.mk.injEq, List.mem_map, Prod.exists,
    OrderedMap.find?_eq_some_iff]
  constructor
  · rintro (isReverse | ⟨property, value, member, rfl, rfl⟩)
    · exact Or.inl isReverse
    · exact Or.inr ⟨property, value, member, rfl, rfl⟩
  · rintro (isReverse | ⟨property, value, member, rfl, rfl⟩)
    · exact Or.inl isReverse
    · exact Or.inr ⟨property, value, member, rfl, rfl⟩

end StoredMessage

/-- Whether the contents hold these entries of the messages of a catalog and no other key. -/
def Contents.HoldsExactly (contents : Contents) (catalog : MessageCatalog)
    (entries : String → StoredMessage → List (Bytes × Bytes)) : Prop :=
  ∀ key value, contents.find? key = some value ↔
    ∃ tenant identifier stored, catalog.find? [tenant, identifier] = some stored ∧
      (key, value) ∈ entries tenant stored

/-- Contents that hold exactly the same are the same. -/
theorem Contents.HoldsExactly.eq {first second : Contents} {catalog : MessageCatalog}
    {entries : String → StoredMessage → List (Bytes × Bytes)}
    (isFirst : first.HoldsExactly catalog entries)
    (isSecond : second.HoldsExactly catalog entries) : first = second := by
  apply OrderedMap.eq_of_find?
  intro key
  apply Option.ext
  intro value
  rw [isFirst, isSecond]

/-- Contents that hold exactly one message hold its entries. -/
theorem Contents.HoldsExactly.eq_ofList {contents : Contents} {tenant item : String}
    {stored : StoredMessage} {entries : String → StoredMessage → List (Bytes × Bytes)}
    (exact : contents.HoldsExactly (.ofList [([tenant, item], stored)]) entries)
    (different : ((entries tenant stored).map Prod.fst).Nodup) :
    contents = .ofList (entries tenant stored) := by
  have single : ([([tenant, item], stored)].map Prod.fst).Nodup := List.nodup_singleton _
  apply OrderedMap.eq_of_find?
  intro key
  apply Option.ext
  intro value
  rw [exact, OrderedMap.find?_eq_some_iff, OrderedMap.mem_ofList_iff different]
  constructor
  · rintro ⟨owner, other, held, found, member⟩
    rw [OrderedMap.find?_eq_some_iff, OrderedMap.mem_ofList_iff single,
      List.mem_singleton] at found
    cases found
    exact member
  · intro member
    refine ⟨tenant, item, stored, ?_, member⟩
    rw [OrderedMap.find?_eq_some_iff, OrderedMap.mem_ofList_iff single]
    exact List.mem_singleton_self _

namespace MessageHandles

open MessageStore

/-- Whether the databases hold the entries of the messages of a catalog and no other key. -/
def HoldsExactly (handles : MessageHandles) (catalog : MessageCatalog) : Prop :=
  match handles with
  | .shared database =>
    database.contents.HoldsExactly catalog fun tenant stored =>
      stored.blockEntries tenant ++ stored.indexEntries tenant
  | .separate blocks index =>
    blocks.contents.HoldsExactly catalog StoredMessage.blockEntries ∧
      index.contents.HoldsExactly catalog StoredMessage.indexEntries

/-- Databases that are open alike and hold exactly the same are the same. -/
theorem HoldsExactly.eq {first second : MessageHandles} {catalog : MessageCatalog}
    (alike : Keyed.mode first = Keyed.mode second) (isFirst : first.HoldsExactly catalog)
    (isSecond : second.HoldsExactly catalog) : first = second := by
  rcases Prod.mk.inj alike with ⟨sameLayout, modes⟩
  rcases Prod.mk.inj modes with ⟨blocksMode, indexMode⟩
  have sameDatabase {one other : Database} (mode : Keyed.mode one = Keyed.mode other)
      (contents : one.contents = other.contents) : one = other := by
    rcases Prod.mk.inj mode with ⟨isOpen, medium⟩
    cases one
    cases other
    cases contents
    cases isOpen
    cases medium
    rfl
  cases first with
  | shared database =>
      cases second with
      | shared other =>
          exact congrArg shared
            (sameDatabase blocksMode (Contents.HoldsExactly.eq isFirst isSecond))
      | separate blocks index => cases sameLayout
  | separate blocks index =>
      cases second with
      | shared other => cases sameLayout
      | separate otherBlocks otherIndex =>
          have sameBlocks : blocks = otherBlocks :=
            sameDatabase blocksMode (isFirst.1.eq isSecond.1)
          have sameIndex : index = otherIndex := sameDatabase indexMode (isFirst.2.eq isSecond.2)
          rw [sameBlocks, sameIndex]

/-- Whether every bound key lies in a partition of the store, and in two databases in the right
one. -/
def HoldsNothingElse : MessageHandles → Prop
  | .shared database => database.contents.LiesIn (InPartitions partitions)
  | .separate blocks index =>
    blocks.contents.LiesIn (InPartitions ["messages", "encoded-data"]) ∧
      index.contents.LiesIn (InPartitions ["indexes"])

theorem IsEmpty.holdsNothingElse {handles : MessageHandles} (isEmpty : handles.IsEmpty) :
    handles.HoldsNothingElse := by
  cases handles with
  | shared database =>
      have nothing : database.contents = .empty := isEmpty.noBlocks
      rw [HoldsNothingElse, nothing]
      exact Contents.liesIn_empty _
  | separate blocks index =>
      have noBlocks : blocks.contents = .empty := isEmpty.noBlocks
      have noItems : index.contents = .empty := isEmpty.noItems
      rw [HoldsNothingElse, noBlocks, noItems]
      exact ⟨Contents.liesIn_empty _, Contents.liesIn_empty _⟩

/-- Two databases of which each holds only what it is for. -/
def AreApart (handles : MessageHandles) : Prop :=
  handles.isAtomic = false ∧ handles.HoldsNothingElse

variable {α : Type} {operation : StoreM Database α}

theorem preserves_onBlocks_of_isLocalTo
    (isLocal : operation.IsLocalTo (InPartitions ["messages", "encoded-data"])) :
    (onBlocks operation).Preserves AreApart := by
  rintro (database | ⟨blocks, index⟩) ⟨layout, inside⟩
  · cases layout
  · exact ⟨rfl, Database.preserves_liesIn isLocal blocks inside.1, inside.2⟩

theorem preserves_onIndex_of_isLocalTo (isLocal : operation.IsLocalTo (InPartitions ["indexes"])) :
    (onIndex operation).Preserves AreApart := by
  rintro (database | ⟨blocks, index⟩) ⟨layout, inside⟩
  · cases layout
  · exact ⟨rfl, inside.1, Database.preserves_liesIn isLocal index inside.2⟩

end MessageHandles

namespace MessageStore

open MessageHandles

theorem inPartitions_blockKey (tenant : String) (identifier : ContentId) :
    InPartitions ["messages", "encoded-data"] ((tenantBlocks tenant).blockKey identifier) :=
  ⟨"messages", by decide, contains_blockKey tenant identifier⟩

theorem inPartitions_payloadKey (tenant : String) (identifier : ContentId) :
    InPartitions ["messages", "encoded-data"] (payloadKey tenant identifier) :=
  ⟨"encoded-data", by decide, contains_payloadKey tenant identifier⟩

theorem liesIn_indexOfTenant (tenant : String) :
    (messageIndex.root.childNamed tenant).range.LiesIn (InPartitions ["indexes"]) :=
  fun _ contained => ⟨"indexes", by decide, Scope.contains_of_contains_child contained⟩

variable (context : Context) (tenant : String)

theorem areApart_writeBlock (message : Json) :
    (writeBlock context tenant (Message.encode message)).Preserves AreApart := by
  apply StoreM.preserves_ofExcept_bind
  intro batch planned
  rw [writeChanges_encode] at planned
  cases planned
  apply preserves_onBlocks_of_isLocalTo
  apply Database.isLocalTo_write
  apply Batch.StaysIn.put (inPartitions_blockKey _ _)
  cases (Message.encode message).payload with
  | none => exact .delete (inPartitions_payloadKey _ _) .nil
  | some payload => exact .put (inPartitions_payloadKey _ _) _ .nil

theorem areApart_removeBlock (identifier : ContentId) :
    (removeBlock context tenant identifier).Preserves AreApart := by
  apply preserves_onBlocks_of_isLocalTo
  apply Database.isLocalTo_write
  exact .delete (inPartitions_blockKey _ _) (.delete (inPartitions_payloadKey _ _) .nil)

theorem areApart_beginPut (message : Json) :
    (beginPut context tenant (Message.encode message)).Preserves AreApart := by
  have looks : (onBlocks ((tenantBlocks tenant).has context
      (Message.encode message).identifier)).Preserves AreApart := by
    apply preserves_onBlocks_of_isLocalTo
    apply Database.isLocalTo_read
    intro first second alike
    rw [alike.contains_eq (inPartitions_blockKey _ _)]
  exact looks.bind fun existed => (areApart_writeBlock context tenant message).bind fun _ =>
    StoreM.preserves_pure existed

theorem areApart_finishPut (message : EncodedMessage) (properties : Properties) (existed : Bool) :
    (finishPut context tenant message properties existed).Preserves AreApart := by
  have indexes :
      (onIndex (messageIndex.put context tenant message.identifier.toText properties)).Preserves
      AreApart :=
    preserves_onIndex_of_isLocalTo
    (ItemIndex.isLocalTo_put context (liesIn_indexOfTenant tenant) _ _)
  apply indexes.attempt.bind
  intro result
  cases result with
  | ok _ => exact StoreM.preserves_pure ()
  | error problem =>
      cases existed with
      | true => exact StoreM.preserves_throw problem
      | false =>
          exact (areApart_removeBlock .background tenant message.identifier).attempt.bind fun _ =>
            StoreM.preserves_throw problem

end MessageStore

namespace MessageWrite

open MessageHandles MessageStore

theorem areApart_firstStep (write : MessageWrite) : write.firstStep.Preserves AreApart := by
  cases write with
  | put context tenant message properties =>
      apply StoreM.preserves_ofExcept_bind
      intro _ _
      cases properties.isEmpty with
      | true => exact StoreM.preserves_throw .emptyIndexSet
      | false => exact areApart_beginPut context tenant message
  | delete context tenant identifier =>
      apply StoreM.preserves_ofExcept_bind
      intro parsed _
      exact preserves_onIndex_of_isLocalTo
        (ItemIndex.isLocalTo_delete context (liesIn_indexOfTenant tenant) parsed.toText)
  | clear context =>
      have clears : clearChanges.StaysIn (InPartitions ["messages", "encoded-data"]) :=
        .deleteRange (liesIn_inPartitions (by decide))
          (.deleteRange (liesIn_inPartitions (by decide)) .nil)
      exact (preserves_onBlocks_of_isLocalTo (Database.isLocalTo_write clears)).bind fun _ =>
        StoreM.preserves_pure true

theorem areApart_secondStep (write : MessageWrite) (found : Bool) :
    (write.secondStep found).Preserves AreApart := by
  cases write with
  | put context tenant message properties =>
      exact areApart_finishPut context tenant (Message.encode message) properties found
  | delete context tenant identifier =>
      apply StoreM.preserves_ofExcept_bind
      intro parsed _
      exact areApart_removeBlock context tenant parsed
  | clear context =>
      have clears : Batch.StaysIn [messageIndex.clearChange] (InPartitions ["indexes"]) :=
        .deleteRange (liesIn_inPartitions (by decide)) .nil
      exact preserves_onIndex_of_isLocalTo (Database.isLocalTo_write clears)

theorem isLocalTo_operation (write : MessageWrite) :
    write.operation.IsLocalTo (InPartitions MessageStore.partitions) := by
  cases write with
  | put context tenant message properties =>
      have puts : (MessageStore.put context tenant message properties).IsLocalTo
          (InPartitions MessageStore.partitions) :=
        (isLocalTo_put message properties).mono fun _ inParts => inParts.inPartitions
      exact puts.bind fun _ => StoreM.isLocalTo_pure ()
  | delete context tenant identifier =>
      exact (isLocalTo_delete identifier).mono fun _ inParts => inParts.inPartitions
  | clear context => exact isLocalTo_clear context

end MessageWrite

namespace MessageHandles

open MessageStore

variable {handles : MessageHandles} {catalog : MessageCatalog}

/-- A write changes neither how the databases lie nor whether they are open. -/
theorem mode_perform (handles : MessageHandles) (write : MessageWrite) :
    Keyed.mode (handles.perform write) = Keyed.mode handles :=
  (write.isLocalTo_operation.leaves handles).mode

theorem HoldsNothingElse.perform (nothingElse : handles.HoldsNothingElse) (write : MessageWrite) :
    (handles.perform write).HoldsNothingElse := by
  cases handles with
  | shared database =>
      have leaves : AgreeOn _ ((shared database).perform write) (shared database) :=
        write.isLocalTo_operation.leaves (shared database)
      rcases agreeOn_iff.1 leaves with ⟨sameLayout, agree, _⟩
      cases after : (shared database).perform write with
      | shared other =>
          rw [after] at agree
          exact Contents.LiesIn.of_agreeOn nothingElse agree
      | separate blocks index =>
          rw [after] at sameLayout
          cases sameLayout
  | separate blocks index =>
      have apart : AreApart (separate blocks index) := ⟨rfl, nothingElse⟩
      have steps := write.areApart_firstStep.bind write.areApart_secondStep
      have after := steps _ apart
      rw [← write.operation_on_separate] at after
      exact after.2

end MessageHandles

/-- A bound message is bound under the identifier of its block. -/
theorem MessageCatalog.IsAddressed.identifier_eq {catalog : MessageCatalog}
    (addressed : catalog.IsAddressed) {tenant identifier : String} {stored : StoredMessage}
    (found : catalog.find? [tenant, identifier] = some stored) :
    identifier = stored.identifier.toText := by
  rcases addressed _ _ found with ⟨owner, same⟩
  simp only [List.cons.injEq, and_true] at same
  exact same.2

namespace MessageStore

variable {contents : Contents} {catalog : MessageCatalog} {tenant identifier : String}
  {stored : StoredMessage} {key value : Bytes}

theorem find?_of_mem_blockEntries (kept : KeepsBlocks contents catalog)
    (addressed : catalog.IsAddressed) (found : catalog.find? [tenant, identifier] = some stored)
    (member : (key, value) ∈ stored.blockEntries tenant) : contents.find? key = some value := by
  rw [addressed.identifier_eq found] at found
  rcases StoredMessage.mem_blockEntries_iff.1 member with ⟨rfl, rfl⟩ | ⟨rfl, isPayload⟩
  · rw [kept.content, found, Option.map_some]
  · rw [kept.payload, found, Option.bind_some, isPayload]

theorem exists_mem_blockEntries (kept : KeepsBlocks contents catalog)
    (addressed : catalog.IsAddressed) (only : HoldsOnlyMessages contents)
    (inside : InPartitions ["messages", "encoded-data"] key)
    (found : contents.find? key = some value) :
    ∃ tenant identifier stored, catalog.find? [tenant, identifier] = some stored ∧
      (key, value) ∈ stored.blockEntries tenant := by
  have bound : contents.contains key = true := by
    rw [OrderedMap.contains, found, Option.isSome_some]
  rcases inside with ⟨name, member, contained⟩
  simp only [List.mem_cons, List.not_mem_nil, or_false] at member
  rcases member with rfl | rfl
  · rcases only.blocks key contained bound with ⟨tenant, identifier, rfl⟩
    rw [kept.content, Option.map_eq_some_iff] at found
    rcases found with ⟨stored, isStored, rfl⟩
    refine ⟨tenant, _, stored, isStored, StoredMessage.mem_blockEntries_iff.2 (Or.inl ⟨?_, rfl⟩)⟩
    rw [ContentId.toText_inj.1 (addressed.identifier_eq isStored)]
  · rcases only.payloads key contained bound with ⟨tenant, identifier, rfl, _⟩
    rw [kept.payload, Option.bind_eq_some_iff] at found
    rcases found with ⟨stored, isStored, isPayload⟩
    refine ⟨tenant, _, stored, isStored, StoredMessage.mem_blockEntries_iff.2
      (Or.inr ⟨?_, isPayload⟩)⟩
    rw [ContentId.toText_inj.1 (addressed.identifier_eq isStored)]

theorem find?_of_mem_indexEntries (indexed : messageIndex.Represents contents catalog.items)
    (addressed : catalog.IsAddressed) (found : catalog.find? [tenant, identifier] = some stored)
    (member : (key, value) ∈ stored.indexEntries tenant) : contents.find? key = some value := by
  rw [addressed.identifier_eq found] at found
  have isItem : catalog.items.find? [tenant, stored.identifier.toText] =
      some stored.properties := by
    rw [MessageCatalog.items, OrderedMap.find?_mapValues, found, Option.map_some]
  rcases StoredMessage.mem_indexEntries_iff.1 member
    with ⟨rfl, rfl⟩ | ⟨property, held, has, rfl, rfl⟩
  · rw [indexed.reverse, isItem, Option.map_some]
  · rw [indexed.forward, ItemCatalog.forwardRecord?, isItem, Option.bind_some, if_pos has]

theorem exists_mem_indexEntries (indexed : messageIndex.Represents contents catalog.items)
    (addressed : catalog.IsAddressed) (inside : InPartitions ["indexes"] key)
    (found : contents.find? key = some value) :
    ∃ tenant identifier stored, catalog.find? [tenant, identifier] = some stored ∧
      (key, value) ∈ stored.indexEntries tenant := by
  have bound : (contents.find? key).isSome = true := by rw [found, Option.isSome_some]
  rcases inside with ⟨name, member, contained⟩
  cases List.mem_singleton.1 member
  rcases indexed.closed key contained bound
    with ⟨tenant, item, rfl⟩ | ⟨tenant, property, held, item, rfl⟩
  · rw [indexed.reverse, MessageCatalog.items, OrderedMap.find?_mapValues, Option.map_map,
      Option.map_eq_some_iff] at found
    rcases found with ⟨stored, isStored, rfl⟩
    cases addressed.identifier_eq isStored
    exact ⟨tenant, _, stored, isStored, StoredMessage.mem_indexEntries_iff.2 (Or.inl ⟨rfl, rfl⟩)⟩
  · rw [indexed.forward, ItemCatalog.forwardRecord?, MessageCatalog.items,
      OrderedMap.find?_mapValues, Option.bind_map, Option.bind_eq_some_iff] at found
    rcases found with ⟨stored, isStored, written⟩
    cases addressed.identifier_eq isStored
    simp only [Function.comp_apply, Option.ite_none_right_eq_some, Option.some.injEq] at written
    exact ⟨tenant, _, stored, isStored,
      StoredMessage.mem_indexEntries_iff.2
      (Or.inr ⟨property, held, written.1, rfl, written.2.symm⟩)⟩

end MessageStore

/-- The three partitions of a message store. -/
theorem MessageStore.inPartitions_iff {key : Bytes} : InPartitions partitions key ↔
    InPartitions ["messages", "encoded-data"] key ∨ InPartitions ["indexes"] key := by
  simp only [InPartitions, partitions, List.mem_cons, List.not_mem_nil, or_false, exists_eq_or_imp,
    exists_eq_left, or_assoc]

namespace MessageHandles

open MessageStore

variable {handles : MessageHandles} {catalog : MessageCatalog}

/-- Databases that hold a catalog and nothing that does not belong to one hold exactly its
entries. -/
theorem Holds.holdsExactly (holds : handles.Holds catalog) (only : handles.HoldsOnlyMessages)
    (nothingElse : handles.HoldsNothingElse) : handles.HoldsExactly catalog := by
  have isBound {contents : Contents} {key value : Bytes} (found : contents.find? key = some value) :
      contents.contains key = true := by rw [OrderedMap.contains, found, Option.isSome_some]
  cases handles with
  | shared database =>
      intro key value
      constructor
      · intro found
        rcases inPartitions_iff.1 (nothingElse key (isBound found)) with inBlocks | inIndex
        · rcases exists_mem_blockEntries holds.kept holds.addressed only.blocks inBlocks found
            with ⟨tenant, identifier, stored, isStored, member⟩
          exact ⟨tenant, identifier, stored, isStored, List.mem_append_left _ member⟩
        · rcases exists_mem_indexEntries holds.indexed holds.addressed inIndex found
            with ⟨tenant, identifier, stored, isStored, member⟩
          exact ⟨tenant, identifier, stored, isStored, List.mem_append_right _ member⟩
      · rintro ⟨tenant, identifier, stored, isStored, member⟩
        rcases List.mem_append.1 member with inBlocks | inIndex
        · exact find?_of_mem_blockEntries holds.kept holds.addressed isStored inBlocks
        · exact find?_of_mem_indexEntries holds.indexed holds.addressed isStored inIndex
  | separate blocks index =>
      constructor
      · intro key value
        constructor
        · intro found
          exact exists_mem_blockEntries holds.kept holds.addressed only.blocks
            (nothingElse.1 key (isBound found)) found
        · rintro ⟨tenant, identifier, stored, isStored, member⟩
          exact find?_of_mem_blockEntries holds.kept holds.addressed isStored member
      · intro key value
        constructor
        · intro found
          exact exists_mem_indexEntries holds.indexed holds.addressed
            (nothingElse.2 key (isBound found)) found
        · rintro ⟨tenant, identifier, stored, isStored, member⟩
          exact find?_of_mem_indexEntries holds.indexed holds.addressed isStored member

end MessageHandles

end TenantStore
