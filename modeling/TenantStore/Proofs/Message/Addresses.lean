import Mathlib.Data.List.Basic
import Mathlib.Tactic.Common
import TenantStore.ContentId.Document
import TenantStore.Proofs.Index.WrittenRecords
import TenantStore.Proofs.Message.FailedPuts
import TenantStore.Proofs.Message.Reconciliation
import TenantStore.Proofs.Payload.Nodes

/-!
# Identifiers as addresses

The blocks and the index name a message in two forms: the key of the block is made of the bytes of
its identifier, and the index holds the text.  Every written form of an identifier is read as the
identifier, so the text that a put leaves in the index leads back to the key under which it wrote
the block, and a reconciliation finds both halves of the message.
-/

namespace TenantStore

namespace ContentId

/-- Every written form of an identifier is read as the identifier. -/
structure IsReadBack (identifier : ContentId) : Prop where
  text : parse identifier.toText = .ok identifier
  bytes : parseBytes identifier.toBytes = .ok identifier
  document : ofJson? identifier.toJson = some identifier
  /-- Through the bytes of a JSON document. -/
  json : (Json.ofBytes? identifier.toJson.toBytes).bind ofJson? = some identifier
  /-- Through the bytes of a binary document. -/
  cbor : (Json.ofCbor? identifier.toJson.toCbor).bind ofJson? = some identifier

@[simp]
theorem ofJson?_toJson (identifier : ContentId) : ofJson? identifier.toJson = some identifier := by
  simp [ofJson?, toJson, Json.text?, ofText_toText, Except.toOption]

theorem isReadBack (identifier : ContentId) : identifier.IsReadBack where
  text := parse_toText identifier
  bytes := by simp [parseBytes, Except.mapError]
  document := ofJson?_toJson identifier
  json := by
    have exact : Json.IsExact identifier.toJson := .text identifier.toText
    simp [Json.toBytes, Json.ofBytes?_render exact]
  cbor := by
    have canonical : Json.IsCanonical identifier.toJson := .text identifier.length_toText_lt
    have cheap : identifier.toJson.readingCost ≤ Cbor.wholeBudget := by
      simp [toJson, Json.readingCost, Cbor.wholeBudget]
    obtain ⟨found, read, stands⟩ := Json.ofCbor?_toCbor canonical cheap
    have same : found = identifier.toJson := by
      cases found <;> simp_all [Json.normalize, toJson]
    simp [read, same]

/-- Distinct identifiers have distinct texts, bytes and block keys. -/
theorem apart_of_ne {first second : ContentId} (different : first ≠ second) :
    first.toText ≠ second.toText ∧ first.toBytes ≠ second.toBytes ∧
      ∀ partition : BlockPartition, partition.blockKey first ≠ partition.blockKey second := by
  simp [different, BlockPartition.blockKey_inj]

end ContentId

namespace MessageHandles

open MessageStore

/-- Both halves of a message as they were written: its block and the reverse record of its index
entries. -/
def HoldsHalves (handles : MessageHandles) (tenant : String) (identifier : ContentId)
    (content record : Bytes) : Prop :=
  handles.blocks.contents.find? ((tenantBlocks tenant).blockKey identifier) = some content ∧
    handles.index.contents.find? (messageIndex.reverseKey tenant identifier.toText) = some record

variable {handles after : MessageHandles} {context : Context} {tenant owner item : String}
  {identifier other : ContentId} {content record : Bytes}

theorem HoldsHalves.isWhole (halves : handles.HoldsHalves tenant identifier content record) :
    handles.IsWhole tenant identifier := by
  simp [IsWhole, hasBlock, isIndexed, OrderedMap.contains, halves.1, halves.2]

theorem reverseKey_ne_blockKey (tenant item owner : String) (identifier : ContentId) :
    messageIndex.reverseKey tenant item ≠ (tenantBlocks owner).blockKey identifier := by
  intro same
  have contained := messageIndex.contains_reverseKey tenant item
  simp [same, index_not_contains_blockKey] at contained

theorem reverseKey_ne_payloadKey (tenant item owner : String) (identifier : ContentId) :
    messageIndex.reverseKey tenant item ≠ payloadKey owner identifier := by
  intro same
  have contained := messageIndex.contains_reverseKey tenant item
  simp [same, index_not_contains_payloadKey] at contained

theorem blockKey_not_isEntry (tenant owner item : String) (identifier : ContentId) :
    ¬messageIndex.IsEntry owner item ((tenantBlocks tenant).blockKey identifier) := by
  intro isEntry
  have contained := isEntry.contains
  simp [index_not_contains_blockKey] at contained

/-- No repair of a block takes away a half of a message that has both, since its text leads the
repair to the index entries. -/
theorem preserves_removeOrphan (context : Context) (owner : String) (other : ContentId) :
    (removeOrphan context owner other).Preserves
      fun handles => handles.HoldsHalves tenant identifier content record := by
  intro handles halves
  rcases (ends_removeOrphan context owner handles other).after_cases
    with same | ⟨unindexed, repaired⟩
  · rwa [same]
  · have isOther : ¬(tenant = owner ∧ identifier = other) := by
      rintro ⟨rfl, rfl⟩
      exact Bool.false_ne_true (unindexed.symm.trans halves.isWhole.2)
    have block : AgreeAt (handles.withoutBlock owner other) handles
        ((tenantBlocks tenant).blockKey identifier) :=
      agreeAt_withoutBlock (by simpa using isOther) (blockKey_ne_payloadKey _ _ _ _)
    have entry : AgreeAt (handles.withoutBlock owner other) handles
        (messageIndex.reverseKey tenant identifier.toText) :=
      agreeAt_withoutBlock (reverseKey_ne_blockKey _ _ _ _) (reverseKey_ne_payloadKey _ _ _ _)
    rw [repaired]
    exact ⟨block.1.trans halves.1, entry.2.trans halves.2⟩

/-- Nor does a repair of index entries, since their text leads it to the block. -/
theorem preserves_removeDangling (context : Context) (owner item : String) :
    (removeDangling context owner item).Preserves
      fun handles => handles.HoldsHalves tenant identifier content record := by
  intro handles halves
  rcases (ends_removeDangling context owner handles item).after_cases
    with same | ⟨⟨absent, _⟩, repaired⟩
  · rwa [same]
  · have isOther : ¬messageIndex.IsEntry owner item
        (messageIndex.reverseKey tenant identifier.toText) := by
      intro isEntry
      have own : messageIndex.IsEntry tenant identifier.toText
          (messageIndex.reverseKey tenant identifier.toText) := Or.inl rfl
      obtain ⟨rfl, rfl⟩ := own.unique isEntry
      rw [holdsBlock_toText] at absent
      exact Bool.false_ne_true (absent.symm.trans halves.isWhole.1)
    have block : AgreeAt (handles.withoutEntries owner item) handles
        ((tenantBlocks tenant).blockKey identifier) :=
      agreeAt_withoutEntries (blockKey_not_isEntry _ _ _ _)
    have entry : AgreeAt (handles.withoutEntries owner item) handles
        (messageIndex.reverseKey tenant identifier.toText) := agreeAt_withoutEntries isOther
    rw [repaired]
    exact ⟨block.1.trans halves.1, entry.2.trans halves.2⟩

section Removed

variable {α : Type} {good : MessageHandles → Prop} {candidates names : List α}
  {remove : α → StoreM MessageHandles Bool} {target : α}

theorem exists_of_removed_cons_on {candidate : α}
    (happens : (removed (candidate :: candidates) remove).on handles = (.ok names, after)) :
    ∃ answer middle rest, (remove candidate).on handles = (.ok answer, middle) ∧
      (removed candidates remove).on middle = (.ok rest, after) ∧
        names = if answer then candidate :: rest else rest := by
  have whole := happens
  unfold removed at happens
  rw [List.mapM_cons] at happens
  obtain ⟨outcomes, last, made, _⟩ := StoreM.exists_of_bind_on_eq_ok happens
  obtain ⟨outcome, middle, first, later⟩ := StoreM.exists_of_bind_on_eq_ok made
  obtain ⟨answer, _, answered, isPair⟩ := StoreM.exists_of_bind_on_eq_ok first
  cases isPair
  obtain ⟨others, ending, others_on, _⟩ := StoreM.exists_of_bind_on_eq_ok later
  have rest : (removed candidates remove).on middle =
      (.ok ((others.filter Prod.snd).map Prod.fst), ending) := by
    rw [removed, StoreM.on_bind, others_on]
    rfl
  rw [removed_cons_on answered rest] at whole
  cases whole
  exact ⟨answer, middle, _, answered, rest, rfl⟩

/-- What no state of the run lets a repair take away is not reported. -/
theorem not_mem_of_removed_on (each : ∀ candidate, (remove candidate).Preserves good)
    (spares : ∀ state last, good state → (remove target).on state ≠ (.ok true, last))
    (isGood : good handles)
    (happens : (removed candidates remove).on handles = (.ok names, after)) : target ∉ names := by
  induction candidates generalizing handles names with
  | nil =>
      cases happens
      exact List.not_mem_nil
  | cons candidate candidates ih =>
      obtain ⟨answer, middle, rest, answered, later, rfl⟩ := exists_of_removed_cons_on happens
      have stillGood := each candidate handles isGood
      rw [answered] at stillGood
      have notLater := ih stillGood later
      cases answer with
      | false => exact notLater
      | true =>
          have isOther : target ≠ candidate := by
            rintro rfl
            exact spares handles middle isGood answered
          simpa [isOther] using notLater

end Removed

theorem HoldsHalves.spared_by_removeOrphan (state last : MessageHandles)
    (halves : state.HoldsHalves tenant identifier content record) :
    (removeOrphan context tenant identifier).on state ≠ (.ok true, last) := by
  intro happens
  have unindexed := ((ends_removeOrphan context tenant state identifier).of_ok happens).1.1 rfl
  exact Bool.false_ne_true (unindexed.symm.trans halves.isWhole.2)

theorem HoldsHalves.spared_by_removeDangling (state last : MessageHandles)
    (halves : state.HoldsHalves tenant identifier content record) :
    (removeDangling context tenant identifier.toText).on state ≠ (.ok true, last) := by
  intro happens
  have absent :=
    (((ends_removeDangling context tenant state identifier.toText).of_ok happens).1.1 rfl).1
  rw [holdsBlock_toText] at absent
  exact Bool.false_ne_true (absent.symm.trans halves.isWhole.1)

/-- A reconciliation finds both halves of a message that has them: it takes neither away and reports
neither. -/
theorem HoldsHalves.reconcile {report : RepairReport}
    (halves : handles.HoldsHalves tenant identifier content record)
    (happens : (MessageStore.reconcile context owner).on handles = (.ok report, after)) :
    after.HoldsHalves tenant identifier content record ∧
      (owner = tenant → identifier.toText ∉ report.orphaned ∧
        identifier.toText ∉ report.dangling) := by
  obtain ⟨blocksAdmit, indexAdmits⟩ := admits_of_reconcile_on happens
  obtain ⟨indexed, _, listed, happens⟩ := StoreM.exists_of_bind_on_eq_ok happens
  rw [on_onIndex, ItemIndex.identifiers, Database.on_read indexAdmits, withIndex_index] at listed
  obtain ⟨_, rfl⟩ := Prod.mk.inj listed
  obtain ⟨stored, _, found, happens⟩ := StoreM.exists_of_bind_on_eq_ok happens
  rw [on_onBlocks, BlockPartition.on_identifiers, withBlocks_blocks] at found
  obtain ⟨_, rfl⟩ := Prod.mk.inj found
  obtain ⟨orphaned, middle, blocksRepaired, happens⟩ := StoreM.exists_of_bind_on_eq_ok happens
  obtain ⟨dangling, last, entriesRepaired, ends⟩ := StoreM.exists_of_bind_on_eq_ok happens
  cases ends
  let good (state : MessageHandles) : Prop := state.HoldsHalves tenant identifier content record
  have sparesBlock (candidate : ContentId) :
      (removeOrphan context owner candidate).Preserves good :=
    preserves_removeOrphan context owner candidate
  have sparesEntries (candidate : String) :
      (removeDangling context owner candidate).Preserves good :=
    preserves_removeDangling context owner candidate
  have inBetween : good middle := (preserves_removed sparesBlock).of_on halves blocksRepaired
  refine ⟨(preserves_removed sparesEntries).of_on inBetween entriesRepaired, ?_⟩
  rintro rfl
  have notOrphaned : identifier ∉ orphaned :=
    not_mem_of_removed_on sparesBlock spared_by_removeOrphan halves blocksRepaired
  constructor
  · intro member
    obtain ⟨other, isReported, same⟩ := List.mem_map.1 member
    rw [ContentId.toText_inj] at same
    exact notOrphaned (same ▸ isReported)
  · exact not_mem_of_removed_on sparesEntries spared_by_removeDangling inBetween entriesRepaired

end MessageHandles

namespace MessageStore

variable {handles after : MessageHandles} {context : Context} {tenant : String} {message : Json}
  {properties : Properties} {identifier : ContentId}

/-- An index that is written with further changes was admitted and had a batch. -/
theorem exists_of_putWith_on {database later : Database} {item : String} {further : Batch}
    (happens : (messageIndex.putWith context tenant item properties further).on database =
      (.ok (), later)) :
    database.Admits context ∧ ∃ batch,
      messageIndex.putBatch database.contents tenant item properties = .ok batch ∧
        later = { database with contents := database.contents.applyAll (batch ++ further) } := by
  rw [ItemIndex.putWith] at happens
  by_cases admits : database.Admits context
  · rw [Database.on_update admits] at happens
    cases planned : messageIndex.putBatch database.contents tenant item properties with
    | error problem => simp [planned] at happens
    | ok batch =>
        simp only [planned, ok_bind, pure, Except.pure, Prod.mk.injEq] at happens
        exact ⟨admits, batch, rfl, happens.2.symm⟩
  · obtain ⟨problem, refused⟩ := Database.on_update_of_not_admits admits _
    rw [refused] at happens
    cases happens

/-- What a put has left: the block under the key of the identifier, and the item under its text. -/
structure HoldsPut (handles : MessageHandles) (tenant : String) (message : Json)
    (properties : Properties) : Prop where
  block : handles.blocks.contents.find?
      ((tenantBlocks tenant).blockKey (Message.encode message).identifier) =
    some (Message.encode message).content
  shows : messageIndex.ShowsItem handles.index.contents tenant
    (Message.encode message).identifier.toText properties

theorem block_of_writeChanges {contents : Contents} {batch : Batch}
    (planned : writeChanges tenant (Message.encode message) = .ok batch) :
    contents.applyAll batch = written contents tenant message := by
  rw [writeChanges_encode] at planned
  cases planned
  rfl

theorem holdsPut_of_putAtOnce_on {database : Database}
    (happens : (putAtOnce context tenant (Message.encode message) properties).on
      (.shared database) = (.ok (), after)) : HoldsPut after tenant message properties := by
  have planned := writeChanges_encode tenant message
  simp only [putAtOnce, StoreM.on_bind, StoreM.on_ofExcept, planned, on_onIndex,
    MessageHandles.index] at happens
  cases indexed : (messageIndex.putWith context tenant (Message.encode message).identifier.toText
      properties _).on database with
  | mk result later =>
      rw [indexed] at happens
      obtain ⟨rfl, rfl⟩ := Prod.mk.inj happens
      obtain ⟨_, batch, plannedIndex, rfl⟩ := exists_of_putWith_on indexed
      constructor
      · rw [MessageHandles.withIndex, MessageHandles.blocks, Contents.applyAll_append,
          block_of_writeChanges planned, find?_written_blockKey, if_pos ⟨rfl, rfl⟩]
      · exact ItemIndex.showsItem_of_putBatch plannedIndex (avoids_writeChanges planned)

theorem holdsPut_of_putInSteps_on {blocks index : Database}
    (happens : (putInSteps context.steady tenant (Message.encode message) properties).on
      (.separate blocks index) = (.ok (), after)) : HoldsPut after tenant message properties := by
  have admits : blocks.Admits context := by
    by_contra refuses
    obtain ⟨problem, stopped⟩ := Database.ready_of_not_admits refuses
    obtain ⟨_, _, found, _⟩ := StoreM.exists_of_bind_on_eq_ok happens
    simp [on_onBlocks, BlockPartition.has, Database.read, MessageHandles.blocks, stopped] at found
  rw [putInSteps_on_eq context.steady admits admits] at happens
  split at happens
  · rename_i later indexed
    cases happens
    obtain ⟨_, batch, planned, rfl⟩ := exists_of_putWith_on indexed
    constructor
    · rw [MessageHandles.blocks, find?_written_blockKey, if_pos ⟨rfl, rfl⟩]
    · exact ItemIndex.showsItem_of_putBatch planned (Batch.avoids_nil _)
  · cases happens

/-- A put that succeeds, from whatever databases. -/
theorem holdsPut_of_put_on
    (happens : (put context tenant message properties).on handles = (.ok identifier, after)) :
    identifier = (Message.encode message).identifier ∧
    HoldsPut after tenant message properties := by
  have live : context.isLive = true := by
    rw [← Bool.not_eq_false]
    intro stopped
    obtain ⟨problem, refused⟩ := put_on_of_stopped handles stopped tenant message properties
    simp [refused] at happens
  have indexable : properties.isEmpty = false := by
    rw [Bool.eq_false_iff]
    intro nothing
    simp [put_on_of_isEmpty live tenant message nothing] at happens
  rw [put_on_of_indexable live tenant message indexable] at happens
  obtain ⟨_, _, stepped, ends⟩ := StoreM.exists_of_bind_on_eq_ok happens
  cases ends
  cases handles with
  | shared database => exact ⟨rfl, holdsPut_of_putAtOnce_on stepped⟩
  | separate blocks index => exact ⟨rfl, holdsPut_of_putInSteps_on stepped⟩

/-- Items whose identifiers are texts of identifiers are loaded from the keys of these. -/
theorem loadItems_on_of_named (admits : handles.blocks.Admits context) {items : List IndexedItem}
    {identifiers : List ContentId}
    (named : items.map IndexedItem.identifier = identifiers.map ContentId.toText) :
    (loadItems context tenant items).on handles =
      ((identifiers.mapM (loadFrom handles.blocks.contents tenant)).map (·.filterMap id),
        handles) := by
  let loadNamed (text : String) : Except StoreError (Option Json) :=
    ContentId.parse text >>= loadFrom handles.blocks.contents tenant
  have each (item : IndexedItem) :
      (StoreM.ofExcept (ContentId.parse item.identifier) >>= load context tenant).on handles =
        (loadNamed item.identifier, handles) := by
    rw [StoreM.on_bind, StoreM.on_ofExcept]
    cases parses : ContentId.parse item.identifier with
    | error problem => simp [loadNamed, parses]
    | ok identifier =>
        simp only [load, on_onBlocks, Database.on_read admits, withBlocks_blocks, loadNamed,
          parses, ok_bind]
  have whole : items.mapM (fun item => loadNamed item.identifier) =
      identifiers.mapM (loadFrom handles.blocks.contents tenant) := by
    have leads : loadNamed ∘ ContentId.toText = loadFrom handles.blocks.contents tenant := by
      funext identifier
      simp [loadNamed]
    have same := congrArg (fun texts : List String => texts.mapM loadNamed) named
    simp only [List.mapM_map, leads] at same
    exact same
  rw [loadItems, StoreM.on_bind, StoreM.on_mapM_of_reads fun item _ => each item, whole]
  cases identifiers.mapM (loadFrom handles.blocks.contents tenant) <;> rfl

/-- A query loads what the kept items name from the keys of their identifiers. -/
theorem query_on_of_named (admits : handles.blocks.Admits context) {filters : List Filter}
    {sort : Option MessageSort} {pagination : Option Pagination} {page : IndexPage}
    (asked : (messageIndex.query context tenant filters (.forPage sort pagination)).on
      handles.index = (.ok page, handles.index))
    {kept : List IndexedItem} {cursor : Option String}
    (shown : pageItems page.items pagination (QueryOptions.forPage sort pagination).sortProperty =
      .ok (kept, cursor))
    {identifiers : List ContentId}
    (named : kept.map IndexedItem.identifier = identifiers.map ContentId.toText) :
    (query context tenant filters sort pagination).on handles =
      ((identifiers.mapM (loadFrom handles.blocks.contents tenant)).map fun loaded =>
        ⟨loaded.filterMap id, cursor⟩, handles) := by
  simp only [query, StoreM.on_bind, on_onIndex, asked, withIndex_index, StoreM.on_ofExcept, shown,
    loadItems_on_of_named admits named]
  cases identifiers.mapM (loadFrom handles.blocks.contents tenant) <;> rfl

/-- The text of an identifier leads from the index entries of a message to its block and back. -/
structure LeadsTo (handles : MessageHandles) (tenant : String) (identifier : ContentId)
    (content : Bytes) (properties : Properties) : Prop where
  /-- The block lies under the key of the identifier. -/
  block : handles.blocks.contents.find? ((tenantBlocks tenant).blockKey identifier) = some content
  /-- The index entries hold the text, with the properties. -/
  shows : messageIndex.ShowsItem handles.index.contents tenant identifier.toText properties
  /-- A repair computes the key of the block from the text. -/
  key : blockKey? tenant identifier.toText = some ((tenantBlocks tenant).blockKey identifier)
  /-- A reconciliation of any tenant leaves both halves, and reports neither of them. -/
  reconcile (context : Context) (owner : String) (report : RepairReport) (after : MessageHandles)
    (happens : (MessageStore.reconcile context owner).on handles = (.ok report, after)) :
    after.blocks.contents.find? ((tenantBlocks tenant).blockKey identifier) = some content ∧
      messageIndex.propertiesIn? after.index.contents tenant identifier.toText =
        .ok (some properties) ∧
        (owner = tenant → identifier.toText ∉ report.orphaned ∧ identifier.toText ∉ report.dangling)

theorem HoldsPut.leadsTo (held : HoldsPut handles tenant message properties) :
    LeadsTo handles tenant (Message.encode message).identifier (Message.encode message).content
      properties where
  block := held.block
  shows := held.shows
  key := by simp [blockKey?, Except.toOption]
  reconcile context owner report after happens := by
    have read := held.shows.reverse
    rw [ItemIndex.propertiesIn?] at read
    cases found : handles.index.contents.find?
        (messageIndex.reverseKey tenant (Message.encode message).identifier.toText) with
    | none => simp [found] at read
    | some record =>
        have halves : handles.HoldsHalves tenant (Message.encode message).identifier
            (Message.encode message).content record := ⟨held.block, found⟩
        obtain ⟨still, unreported⟩ := halves.reconcile happens
        refine ⟨still.1, ?_, unreported⟩
        rw [ItemIndex.propertiesIn?, still.2]
        rwa [found] at read

/-- Identifiers survive every written form, so distinct ones have distinct texts and block keys; and
the text that the index holds of a message leads queries and reconciliations to the key of its
block. -/
theorem identifiers_lead_to_blocks :
    (∀ identifier : ContentId, identifier.IsReadBack) ∧
    (∀ first second : ContentId, first ≠ second →
      first.toText ≠ second.toText ∧ first.toBytes ≠ second.toBytes ∧
        ∀ partition : BlockPartition, partition.blockKey first ≠ partition.blockKey second) ∧
    (∀ (handles : MessageHandles) (context : Context) (tenant : String) (filters : List Filter)
        (sort : Option MessageSort) (pagination : Option Pagination) (page : IndexPage)
        (kept : List IndexedItem) (cursor : Option String) (identifiers : List ContentId),
      handles.blocks.Admits context →
      (messageIndex.query context tenant filters (.forPage sort pagination)).on handles.index =
        (.ok page, handles.index) →
      pageItems page.items pagination (QueryOptions.forPage sort pagination).sortProperty =
        .ok (kept, cursor) →
      kept.map IndexedItem.identifier = identifiers.map ContentId.toText →
      (query context tenant filters sort pagination).on handles =
        ((identifiers.mapM (loadFrom handles.blocks.contents tenant)).map fun loaded =>
          ⟨loaded.filterMap id, cursor⟩, handles)) ∧
    ∀ (handles after : MessageHandles) (context : Context) (tenant : String) (message : Json)
        (properties : Properties) (identifier : ContentId),
      (put context tenant message properties).on handles = (.ok identifier, after) →
        LeadsTo after tenant identifier (Message.encode message).content properties := by
  refine ⟨ContentId.isReadBack, fun _ _ => ContentId.apart_of_ne, ?_, ?_⟩
  · intro handles context tenant filters sort pagination page kept cursor identifiers admits
      asked shown
    exact query_on_of_named admits asked shown
  · intro handles after context tenant message properties identifier happens
    obtain ⟨rfl, held⟩ := holdsPut_of_put_on happens
    exact held.leadsTo

/-- A message that is put into two new databases is led to, and a query finds it. -/
theorem identifiers_lead_to_blocks_of_put :
    let message : Json := .object [("kind", .text "note")]
    let properties : Properties := .ofList [("messageTimestamp", .text "2024-01-01")]
    let identifier := (Message.encode message).identifier
    ∃ after, (put {} "alice" message properties).on (.separate {} {}) = (.ok identifier, after) ∧
      LeadsTo after "alice" identifier (Message.encode message).content properties ∧
      (query {} "alice" [] none none).on after = (.ok ⟨[message], none⟩, after) := by
  intro message properties identifier
  have isNew : (MessageHandles.separate {} {}).IsNew := ⟨rfl, rfl, rfl, rfl⟩
  have live : ({} : Context).isLive = true := by decide
  have indexable : properties.isEmpty = false := by decide
  obtain ⟨after, happens, holds⟩ := on_put live isNew.holds "alice" message indexable
  refine ⟨after, happens, identifiers_lead_to_blocks.2.2.2 _ _ _ _ _ _ _ happens, ?_⟩
  let catalog : MessageCatalog := OrderedMap.empty.insert ["alice", identifier.toText]
    (.of message properties)
  have holdsCatalog : after.Holds catalog := holds
  have listed : catalog.items.page "alice" [] (.forPage none none) none =
      ⟨[⟨identifier.toText, properties⟩], none⟩ := rfl
  have asked : (messageIndex.query {} "alice" [] (.forPage none none)).on after.index =
      (.ok ⟨[⟨identifier.toText, properties⟩], none⟩, after.index) := by
    have answered := @ItemIndex.on_query messageIndex catalog.items "alice" [] none after.index {}
      ⟨holds.indexOpen, live⟩ holdsCatalog.indexed rfl (.forPage none none) rfl
    rw [answered, listed]
  have isCanonical : message.IsCanonical := by
    refine .object (by decide) ?_ ?_ ?_
    · exact List.pairwise_singleton _ _
    · exact List.forall_mem_singleton.2 (by decide)
    · exact List.forall_mem_singleton.2 (.text (by decide))
  have loads : loadFrom after.blocks.contents "alice" identifier = .ok (some message) := by
    have read : StoredMessage.load (.of message properties) = .ok message :=
      Message.decode_encode isCanonical (show 3 ≤ Cbor.wholeBudget by decide)
    rw [loadFrom_eq holdsCatalog.kept, MessageCatalog.load?, OrderedMap.find?_insert, if_pos rfl]
    simp only [read, Except.map]
  have shown := identifiers_lead_to_blocks.2.2.1 after {} "alice" [] none none _
    [⟨identifier.toText, properties⟩] none [identifier] ⟨holds.blocksOpen, live⟩ asked rfl rfl
  rw [shown]
  simp [loads, Except.map]

end MessageStore

end TenantStore
