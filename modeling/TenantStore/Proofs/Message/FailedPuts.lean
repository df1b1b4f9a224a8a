import Mathlib.Data.List.Basic
import Mathlib.Tactic.Common
import TenantStore.Proofs.Message.Query

/-!
# Puts that fail

A put that fails leaves the index as it was.  In two databases the block and the inline payload are
written before the index is, and they are taken back only if the block is new.  So a put that fails
in the index shows afterwards if the message was already stored with another inline payload, and in
no other case.
-/

namespace TenantStore

namespace MessageHandles

/-- The databases after they are opened again. -/
def reopened (handles : MessageHandles) : MessageHandles := (MessageStore.reopen.on handles).2

/-- Whether every look-up and every query is answered alike. -/
structure AnswerAlike (first second : MessageHandles) : Prop where
  find? (context : Context) (tenant identifier : String) :
    ((MessageStore.find? context tenant identifier).on first).1 =
      ((MessageStore.find? context tenant identifier).on second).1
  query (context : Context) (tenant : String) (filters : List Filter) (sort : Option MessageSort)
    (pagination : Option Pagination) :
    ((MessageStore.query context tenant filters sort pagination).on first).1 =
      ((MessageStore.query context tenant filters sort pagination).on second).1

end MessageHandles

namespace MessageStore

variable {blocks index : Database} {context : Context} {tenant : String} {message : Json}
  {properties : Properties}

/-- The contents once the block and the inline payload of a message are written. -/
def written (contents : Contents) (tenant : String) (message : Json) : Contents :=
  contents.applyAll [.put ((tenantBlocks tenant).blockKey (Message.encode message).identifier)
      (Message.encode message).content,
    payloadChange tenant (Message.encode message).identifier (Message.encode message).payload]

theorem find?_written_blockKey (contents : Contents) (tenant : String) (message : Json)
    (other : String) (identifier : ContentId) :
    (written contents tenant message).find? ((tenantBlocks other).blockKey identifier) =
      if other = tenant ∧ identifier = (Message.encode message).identifier then
        some (Message.encode message).content
      else contents.find? ((tenantBlocks other).blockKey identifier) := by
  simp only [written, Contents.applyAll_cons, Contents.applyAll_nil, apply_payloadChange,
    blockKey_ne_payloadKey, if_false]
  simp only [Contents.apply, OrderedMap.find?_insert, blockKey_inj]

theorem find?_written_payloadKey (contents : Contents) (tenant : String) (message : Json)
    (other : String) (identifier : ContentId) :
    (written contents tenant message).find? (payloadKey other identifier) =
      if other = tenant ∧ identifier = (Message.encode message).identifier then
        (Message.encode message).payload.map Text.bytes
      else contents.find? (payloadKey other identifier) := by
  simp only [written, Contents.applyAll_cons, Contents.applyAll_nil, apply_payloadChange,
    payloadKey_inj]
  simp only [Contents.apply, OrderedMap.find?_insert, payloadKey_ne_blockKey, if_false]

/-- Where a message is written it is read back, and every other message is as it was. -/
theorem loadFrom_written (contents : Contents) (tenant : String) (message : Json) (other : String)
    (identifier : ContentId) :
    loadFrom (written contents tenant message) other identifier =
      if other = tenant ∧ identifier = (Message.encode message).identifier then
        (Message.decode (Message.encode message).content (Message.encode message).payload).map some
      else loadFrom contents other identifier := by
  rw [loadFrom, find?_written_blockKey, find?_written_payloadKey]
  by_cases same : other = tenant ∧ identifier = (Message.encode message).identifier
  · simp only [if_pos same]
    cases (Message.encode message).payload <;> simp
  · simp only [if_neg same]
    rfl

theorem loadFrom_deleteChanges (contents : Contents) (tenant : String) (removed : ContentId)
    (other : String) (identifier : ContentId) :
    loadFrom (contents.applyAll (deleteChanges tenant removed)) other identifier =
      if other = tenant ∧ identifier = removed then .ok none
      else loadFrom contents other identifier := by
  simp only [loadFrom, deleteChanges, BlockPartition.deleteChange, Contents.applyAll_cons,
    Contents.applyAll_nil, Contents.apply, OrderedMap.find?_erase, blockKey_ne_payloadKey,
    payloadKey_ne_blockKey, if_false, blockKey_inj, payloadKey_inj]
  by_cases same : other = tenant ∧ identifier = removed
  · simp only [if_pos same]
  · simp only [if_neg same]

/-- A new message that is written and taken back leaves every message as it was. -/
theorem loadFrom_takenBack {contents : Contents} (isNew : contents.contains
    ((tenantBlocks tenant).blockKey (Message.encode message).identifier) = false) (other : String)
    (identifier : ContentId) :
    loadFrom ((written contents tenant message).applyAll
        (deleteChanges tenant (Message.encode message).identifier)) other identifier =
      loadFrom contents other identifier := by
  rw [loadFrom_deleteChanges, loadFrom_written]
  split
  · rename_i same
    rcases same with ⟨rfl, rfl⟩
    have absent :
        contents.find? ((tenantBlocks other).blockKey (Message.encode message).identifier) =
        none := by
      simpa [OrderedMap.contains] using isNew
    rw [loadFrom, absent]
  · rfl

/-- An index that fails to be written is left as it is. -/
theorem index_putWith_of_error {database after : Database} {item : String} {further : Batch}
    {problem : StoreError}
    (failed : (messageIndex.putWith context tenant item properties further).on database =
      (.error problem, after)) : after = database := by
  unfold ItemIndex.putWith Database.update at failed
  rw [StoreM.on_ofStep] at failed
  split at failed <;> cases failed
  rfl

/-- The contents of the blocks' database after a put into two databases that failed in the index:
the block stays if it was there before. -/
def afterFailure (contents : Contents) (tenant : String) (message : Json) : Contents :=
  if contents.contains ((tenantBlocks tenant).blockKey (Message.encode message).identifier) then
    written contents tenant message
  else (written contents tenant message).applyAll
    (deleteChanges tenant (Message.encode message).identifier)

/-- A put into two databases that gets as far as the index succeeds or fails with it. -/
theorem putInSteps_on_eq (looks : Looks) (reads : blocks.Admits (looks 1))
    (writes : blocks.Admits (looks 2)) (tenant : String) (message : Json) (properties : Properties)
    (index : Database) :
    (putInSteps looks tenant (Message.encode message) properties).on (.separate blocks index) =
      match (messageIndex.put (looks 3) tenant (Message.encode message).identifier.toText
        properties).on index with
      | (.ok (), after) =>
        (.ok (), .separate { blocks with contents := written blocks.contents tenant message } after)
      | (.error problem, after) =>
        (.error problem,
          .separate { blocks with contents := afterFailure blocks.contents tenant message }
          after) := by
  have isWritten : (writeBlock (looks 2) tenant (Message.encode message)).on
      (.separate blocks index) =
        (.ok (), .separate { blocks with contents := written blocks.contents tenant message }
          index) := by
    simp only [writeBlock, writeChanges_encode, StoreM.on_bind, StoreM.on_ofExcept, on_onBlocks,
      MessageHandles.blocks, Database.on_write writes, MessageHandles.withBlocks]
    rfl
  have inBackground :
      Database.Admits { blocks with contents := written blocks.contents tenant message }
      .background := ⟨reads.1, rfl⟩
  have removes (after : Database) :
      (removeBlock .background tenant (Message.encode message).identifier).on
      (.separate { blocks with contents := written blocks.contents tenant message } after) =
        (.ok (), .separate { blocks with
          contents := (written blocks.contents tenant message).applyAll
            (deleteChanges tenant (Message.encode message).identifier) } after) := by
    simp only [removeBlock, on_onBlocks, MessageHandles.blocks, Database.on_write inBackground,
      MessageHandles.withBlocks]
  simp only [putInSteps, StoreM.on_bind, on_onBlocks, MessageHandles.blocks, BlockPartition.has,
    Database.on_read reads, MessageHandles.withBlocks, isWritten, StoreM.on_attempt, on_onIndex,
    MessageHandles.index, MessageHandles.withIndex]
  cases (messageIndex.put (looks 3) tenant (Message.encode message).identifier.toText properties).on
      index with
  | mk result after =>
      cases result with
      | ok _ => rfl
      | error problem =>
          unfold afterFailure
          cases blocks.contents.contains
              ((tenantBlocks tenant).blockKey (Message.encode message).identifier) with
          | true => rfl
          | false =>
              simp only [Bool.not_false, if_true, StoreM.on_bind, StoreM.on_attempt, removes]
              rfl

theorem putInSteps_on_of_error {looks : Looks} (reads : blocks.Admits (looks 1))
    (writes : blocks.Admits (looks 2)) {after : MessageHandles} {problem : StoreError}
    (failed : (putInSteps looks tenant (Message.encode message) properties).on
      (.separate blocks index) = (.error problem, after)) :
    after =
      .separate { blocks with contents := afterFailure blocks.contents tenant message } index := by
  rw [putInSteps_on_eq looks reads writes] at failed
  split at failed
  · cases failed
  · rename_i fault indexAfter indexed
    cases failed
    rw [index_putWith_of_error indexed]

/-- A put into two databases that is stopped before the block is written changes nothing. -/
theorem putInSteps_on_of_not_admits {looks : Looks}
    (refuses : ¬(blocks.Admits (looks 1) ∧ blocks.Admits (looks 2))) (tenant : String)
    (message : Json) (properties : Properties) (index : Database) :
    ∃ problem, (putInSteps looks tenant (Message.encode message) properties).on
      (.separate blocks index) = (.error problem, .separate blocks index) := by
  by_cases reads : blocks.Admits (looks 1)
  · rcases Database.ready_of_not_admits fun writes =>
      refuses ⟨reads, writes⟩ with ⟨problem, stopped⟩
    refine ⟨problem, ?_⟩
    simp only [putInSteps, StoreM.on_bind, on_onBlocks, MessageHandles.blocks, BlockPartition.has,
      Database.on_read reads, MessageHandles.withBlocks, writeBlock, writeChanges_encode,
      StoreM.on_ofExcept, Database.write, Database.update, StoreM.on_ofStep, stopped]
    rfl
  · rcases Database.ready_of_not_admits reads with ⟨problem, stopped⟩
    refine ⟨problem, ?_⟩
    simp only [putInSteps, StoreM.on_bind, on_onBlocks, MessageHandles.blocks, BlockPartition.has,
      Database.read, StoreM.on_ofStep, stopped, MessageHandles.withBlocks]
    rfl

/-- A put into one database is a single batch, so it fails as a whole. -/
theorem putAtOnce_on_of_error {database : Database} {after : MessageHandles} {problem : StoreError}
    (failed : (putAtOnce context tenant (Message.encode message) properties).on (.shared database) =
      (.error problem, after)) : after = .shared database := by
  simp only [putAtOnce, writeChanges_encode, StoreM.on_bind, StoreM.on_ofExcept, on_onIndex,
    MessageHandles.index, MessageHandles.withIndex, Prod.mk.injEq] at failed
  exact failed.2.symm.trans
    (congrArg MessageHandles.shared (index_putWith_of_error (Prod.ext failed.1 rfl)))

/-- Whether a put writes the block first: into two databases, under a context and with properties
that let it begin. -/
def WritesBlockFirst (handles : MessageHandles) (context : Context) (properties : Properties) :
    Prop :=
  handles.isAtomic = false ∧ handles.blocks.Admits context ∧ properties.isEmpty = false

/-- A put that fails leaves everything as it was, unless it writes the block first. -/
theorem put_on_of_error {handles after : MessageHandles} {problem : StoreError}
    (failed : (put context tenant message properties).on handles = (.error problem, after)) :
    after = handles ∧ ¬WritesBlockFirst handles context properties ∨
      ∃ blocks index, handles = .separate blocks index ∧
        WritesBlockFirst (.separate blocks index) context properties ∧
          after =
            .separate { blocks with contents := afterFailure blocks.contents tenant message }
              index := by
  cases live : context.isLive with
  | false =>
      rcases put_on_of_stopped handles live tenant message properties with ⟨fault, refused⟩
      rw [refused] at failed
      cases failed
      exact Or.inl ⟨rfl, fun begun => Database.not_admits (.inl live) begun.2.1⟩
  | true =>
      cases nothing : properties.isEmpty with
      | true =>
          rw [put_on_of_isEmpty live tenant message nothing] at failed
          cases failed
          refine Or.inl ⟨rfl, ?_⟩
          rintro ⟨_, _, something⟩
          rw [nothing] at something
          cases something
      | false =>
          rw [put_on_of_indexable live tenant message nothing, StoreM.on_bind] at failed
          cases handles with
          | shared database =>
              simp only [MessageHandles.isAtomic, if_true] at failed
              cases written : (putAtOnce context tenant (Message.encode message) properties).on
                  (.shared database) with
              | mk result afterward =>
                  rw [written] at failed
                  cases result with
                  | ok _ => cases failed
                  | error fault =>
                      cases failed
                      refine Or.inl ⟨putAtOnce_on_of_error written, ?_⟩
                      rintro ⟨impossible, _⟩
                      cases impossible
          | separate blocks index =>
              simp only [MessageHandles.isAtomic, Bool.false_eq_true, if_false] at failed
              cases written :
                (putInSteps context.steady tenant (Message.encode message) properties).on
                  (.separate blocks index) with
              | mk result afterward =>
                  rw [written] at failed
                  cases result with
                  | ok _ => cases failed
                  | error fault =>
                      cases failed
                      by_cases admits : blocks.Admits context
                      · exact Or.inr ⟨blocks, index, rfl, ⟨rfl, admits, nothing⟩,
                          @putInSteps_on_of_error blocks index tenant message properties
                            context.steady admits admits _ _ written⟩
                      · rcases @putInSteps_on_of_not_admits blocks context.steady
                          (fun both => admits both.1) tenant message properties index
                          with ⟨_, refused⟩
                        rw [refused] at written
                        cases written
                        exact Or.inl ⟨rfl, fun begins => admits begins.2.1⟩

/-- What loading a message from a database of blocks gives. -/
def loaded (blocks : Database) (context : Context) (tenant : String) (identifier : ContentId) :
    Except StoreError (Option Json) :=
  blocks.ready context >>= fun _ => loadFrom blocks.contents tenant identifier

/-- What loading the message of an item gives. -/
def loadedItem (blocks : Database) (context : Context) (tenant : String) (item : IndexedItem) :
    Except StoreError (Option Json) :=
  ContentId.parse item.identifier >>= loaded blocks context tenant

theorem load_on_separate (blocks index : Database) (context : Context) (tenant : String)
    (identifier : ContentId) :
    (load context tenant identifier).on (.separate blocks index) =
      (loaded blocks context tenant identifier, .separate blocks index) := rfl

theorem loadItems_on_separate (blocks index : Database) (context : Context) (tenant : String)
    (items : List IndexedItem) :
    (loadItems context tenant items).on (.separate blocks index) =
      ((items.mapM (loadedItem blocks context tenant)).map fun messages => messages.filterMap id,
        .separate blocks index) := by
  have each (item : IndexedItem) (_ : item ∈ items) :
      (StoreM.ofExcept (ContentId.parse item.identifier) >>= fun identifier =>
        load context tenant identifier).on (.separate blocks index) =
          (loadedItem blocks context tenant item, .separate blocks index) := by
    rw [StoreM.on_bind, StoreM.on_ofExcept, loadedItem]
    cases ContentId.parse item.identifier <;> rfl
  rw [loadItems, StoreM.on_bind, StoreM.on_mapM_of_reads each]
  cases items.mapM (loadedItem blocks context tenant) <;> rfl

/-- A query depends on the blocks only through the messages that are loaded from them. -/
theorem query_on_separate (blocks index : Database) (context : Context) (tenant : String)
    (filters : List Filter) (sort : Option MessageSort) (pagination : Option Pagination) :
    ((query context tenant filters sort pagination).on (.separate blocks index)).1 =
      (((messageIndex.query context tenant filters (.forPage sort pagination)).on index).1 >>=
        fun page =>
          pageItems page.items pagination (QueryOptions.forPage sort pagination).sortProperty >>=
            fun shown =>
              (shown.1.mapM (loadedItem blocks context tenant)).map fun messages =>
                ⟨messages.filterMap id, shown.2⟩) := by
  simp only [query, StoreM.on_bind, on_onIndex, MessageHandles.index, MessageHandles.withIndex]
  cases (messageIndex.query context tenant filters (.forPage sort pagination)).on index with
  | mk result after =>
      cases result with
      | error problem => rfl
      | ok page =>
          simp only [StoreM.on_ofExcept, bind, Except.bind]
          cases pageItems page.items pagination
            (QueryOptions.forPage sort pagination).sortProperty with
          | error problem => rfl
          | ok shown =>
              simp only [loadItems_on_separate]
              cases shown.1.mapM (loadedItem blocks context tenant) <;> rfl

/-- Databases of blocks from which the same messages are loaded make no difference. -/
theorem answerAlike_of_loadFrom {first second : Database} (sameOpen : first.isOpen = second.isOpen)
    (same : ∀ tenant identifier, loadFrom first.contents tenant identifier =
      loadFrom second.contents tenant identifier) (index : Database) :
    (MessageHandles.separate first index).AnswerAlike (.separate second index) := by
  have alike (context : Context) (tenant : String) :
      loaded first context tenant = loaded second context tenant := by
    funext identifier
    simp only [loaded, Database.ready, sameOpen, same]
  have alikeItem (context : Context) (tenant : String) :
      loadedItem first context tenant = loadedItem second context tenant := by
    funext item
    simp only [loadedItem, alike]
  constructor
  · intro context tenant identifier
    simp only [find?, StoreM.on_bind, StoreM.on_ofExcept]
    cases ContentId.parse identifier with
    | error problem => rfl
    | ok parsed => simp only [load_on_separate, alike]
  · intro context tenant filters sort pagination
    simp only [query_on_separate, alikeItem]

/-- Opening again does not look at the contents, and an open database of blocks stays open. -/
theorem exists_reopened_eq (blocks index : Database) :
    ∃ isOpen opened, (blocks.isOpen = true → isOpen = true) ∧ ∀ contents : Contents,
      (MessageHandles.separate { blocks with contents } index).reopened =
        .separate { blocks with contents, isOpen } opened := by
  cases isOpen : blocks.isOpen with
  | true =>
      refine ⟨true, (Database.reopen.on index).2, fun _ => rfl, fun contents => ?_⟩
      simp only [MessageHandles.reopened, reopen, StoreM.on_bind, on_onBlocks, on_onIndex,
        MessageHandles.blocks, MessageHandles.withBlocks, MessageHandles.index,
        MessageHandles.withIndex, Database.reopen, StoreM.on_ofStep, if_true]
  | false =>
      by_cases missing : blocks.medium = .missingFile
      · refine ⟨false, index, id, fun contents => ?_⟩
        simp only [MessageHandles.reopened, reopen, StoreM.on_bind, on_onBlocks,
          MessageHandles.blocks, MessageHandles.withBlocks, Database.reopen, StoreM.on_ofStep,
          Bool.false_eq_true, if_false, if_pos missing]
      · refine ⟨true, (Database.reopen.on index).2, fun _ => rfl, fun contents => ?_⟩
        simp only [MessageHandles.reopened, reopen, StoreM.on_bind, on_onBlocks, on_onIndex,
          MessageHandles.blocks, MessageHandles.withBlocks, MessageHandles.index,
          MessageHandles.withIndex,
          Database.reopen, StoreM.on_ofStep, Bool.false_eq_true, if_false, if_neg missing]

/-- Whether a put that fails in the index replaces a stored message by one that reads
differently. -/
def Overwrites (handles : MessageHandles) (context : Context) (tenant : String) (message : Json)
    (properties : Properties) : Prop :=
  WritesBlockFirst handles context properties ∧
    handles.blocks.contents.contains
        ((tenantBlocks tenant).blockKey (Message.encode message).identifier) = true ∧
      loadFrom handles.blocks.contents tenant (Message.encode message).identifier ≠
        (Message.decode (Message.encode message).content (Message.encode message).payload).map some

/-- After a put that failed in the index, a message that was stored before reads as the one that was
put. -/
theorem loadFrom_afterFailure (contents : Contents) (tenant : String) (message : Json)
    (other : String) (identifier : ContentId) :
    loadFrom (afterFailure contents tenant message) other identifier =
      if (other = tenant ∧ identifier = (Message.encode message).identifier) ∧
          contents.contains ((tenantBlocks tenant).blockKey (Message.encode message).identifier) =
            true then
        (Message.decode (Message.encode message).content (Message.encode message).payload).map some
      else loadFrom contents other identifier := by
  unfold afterFailure
  cases existed : contents.contains
      ((tenantBlocks tenant).blockKey (Message.encode message).identifier) with
  | true => simp only [if_true, loadFrom_written, and_true]
  | false =>
      simp only [Bool.false_eq_true, if_false, and_false]
      exact loadFrom_takenBack existed other identifier

/-- A put that fails does not show once the databases are opened again, unless it replaced a message
that was stored with another inline payload.  In any case it leaves the index and all other messages
alone. -/
theorem answerAlike_reopened_iff {handles after : MessageHandles} {problem : StoreError}
    (failed : (put context tenant message properties).on handles = (.error problem, after)) :
    (handles.reopened.AnswerAlike after.reopened ↔
        ¬Overwrites handles context tenant message properties) ∧
      after.index = handles.index ∧
        ∀ other identifier, ¬(other = tenant ∧ identifier = (Message.encode message).identifier) →
          loadFrom after.blocks.contents other identifier =
            loadFrom handles.blocks.contents other identifier := by
  rcases put_on_of_error failed with ⟨rfl, unbegun⟩ | ⟨blocks, index, rfl, begins, rfl⟩
  · have alike : after.reopened.AnswerAlike after.reopened :=
      ⟨fun _ _ _ => rfl, fun _ _ _ _ _ => rfl⟩
    exact ⟨iff_of_true alike fun overwrites => unbegun overwrites.1, rfl, fun _ _ _ => rfl⟩
  · have load := loadFrom_afterFailure blocks.contents tenant message
    rcases exists_reopened_eq blocks index with ⟨isOpen, opened, stays, reopens⟩
    refine ⟨?_, rfl, ?_⟩
    · rw [reopens, show MessageHandles.separate blocks index =
        .separate { blocks with contents := blocks.contents } index from rfl, reopens]
      constructor
      · rintro alike ⟨_, existed, different⟩
        have found := alike.find? {} tenant (Message.encode message).identifier.toText
        have admits (contents : Contents) :
            Database.Admits { blocks with contents, isOpen } {} := ⟨stays begins.2.1.1, rfl⟩
        simp only [find?, ContentId.parse_toText, StoreM.on_bind, StoreM.on_ofExcept,
          load_on_separate, loaded, Database.ready_of_admits (admits _)] at found
        have changed := load tenant (Message.encode message).identifier
        rw [if_pos ⟨⟨rfl, rfl⟩, existed⟩] at changed
        exact different (found.trans changed)
      · intro unchanged
        apply answerAlike_of_loadFrom (show isOpen = isOpen from rfl)
        intro other identifier
        rw [load]
        split
        · rename_i overwritten
          rcases overwritten with ⟨⟨rfl, rfl⟩, existed⟩
          by_contra different
          exact unchanged ⟨begins, existed, different⟩
        · rfl
    · intro other identifier different
      have same := load other identifier
      rw [if_neg fun both => different both.1] at same
      exact same

/-- A message that is put with another inline payload while the index is closed is replaced. -/
theorem answerAlike_reopened_iff_of_payload :
    let message (payload : String) : Json :=
      .object [("encodedData", .text payload), ("kind", .text "note")]
    let properties : Properties := .ofList [("messageTimestamp", .text "2024-01-01")]
    let stored := ((put {} "alice" (message "old") properties).on (.separate {} {})).2
    let closed : MessageHandles := .separate stored.blocks { stored.index with isOpen := false }
    let failure := (put {} "alice" (message "new") properties).on closed
    failure = (.error .storeNotOpen, failure.2) ∧
    ¬closed.reopened.AnswerAlike failure.2.reopened := by
  intro message properties stored closed failure
  have live : Context.isLive {} = true := rfl
  have admits : Database.Admits {} {} := ⟨rfl, rfl⟩
  have indexable : properties.isEmpty = false := rfl
  have different : message "old" ≠ message "new" := by simp [message]
  have sameContent : (Message.detach (message "new")).2 = (Message.detach (message "old")).2 := rfl
  have canonical (payload : String) (short : (Text.bytes payload).length < UInt64.size) :
      (message payload).IsCanonical := by
    apply Json.IsCanonical.object
    · exact (by decide : 2 < UInt64.size)
    · simp only [List.pairwise_cons, List.forall_mem_singleton]
      exact ⟨by decide, by simp, .nil⟩
    · simp only [List.forall_mem_cons]
      exact ⟨by decide, by decide, by simp⟩
    · simp only [List.forall_mem_cons]
      exact ⟨.text short, .text (by decide), by simp⟩
  have decodes (payload : String) (short : (Text.bytes payload).length < UInt64.size) :
      Message.decode (Message.encode (message payload)).content
      (Message.encode (message payload)).payload =
        .ok (message payload) :=
    Message.decode_encode (canonical payload short) (show 3 ≤ Cbor.wholeBudget by decide)
  have isOld := decodes "old" (by decide)
  have isNew := decodes "new" (by decide)
  -- From here on the messages count only by these facts.
  clear_value message properties
  have identifier (message : Json) : (Message.encode message).identifier =
      .of ContentId.messageCodec (Message.detach message).2.toCbor := rfl
  have sameIdentifier : (Message.encode (message "new")).identifier =
      (Message.encode (message "old")).identifier := by
    rw [identifier, identifier, sameContent]
  rcases ItemIndex.on_put admits (.empty messageIndex) indexable "alice"
    (Message.encode (message "old")).identifier.toText with ⟨contents, indexed, _⟩
  have isStored : stored = .separate { contents := written .empty "alice" (message "old") }
      { contents } := by
    simp only [stored, put_on_of_indexable live "alice" (message "old") indexable, StoreM.on_bind,
      MessageHandles.isAtomic, Bool.false_eq_true, if_false, putInSteps_on_eq (Context.steady {})
      admits admits, indexed]
    rfl
  have blocksAdmit : Database.Admits { contents := written .empty "alice" (message "old") } {} :=
    ⟨rfl, rfl⟩
  have fails : failure = (.error .storeNotOpen, failure.2) := by
    simp only [failure, closed, isStored, MessageHandles.blocks, MessageHandles.index,
      put_on_of_indexable live "alice" (message "new") indexable, StoreM.on_bind,
      MessageHandles.isAtomic, Bool.false_eq_true, if_false,
      putInSteps_on_eq (Context.steady {}) blocksAdmit blocksAdmit]
    rfl
  refine ⟨fails, fun alike => ?_⟩
  apply (answerAlike_reopened_iff fails).1.1 alike
  have stored : closed = .separate { contents := written .empty "alice" (message "old") }
      { contents, isOpen := false } := by
    simp only [closed, isStored, MessageHandles.blocks, MessageHandles.index]
  rw [stored]
  refine ⟨⟨rfl, blocksAdmit, indexable⟩, ?_, ?_⟩
  · simp only [MessageHandles.blocks, OrderedMap.contains, find?_written_blockKey, sameIdentifier,
      and_self, if_true, Option.isSome_some]
  · simp only [MessageHandles.blocks, loadFrom_written, sameIdentifier, and_self, if_true,
      isOld, isNew]
    intro same
    exact different (Option.some_inj.1 (Except.ok.inj same))

end MessageStore

end TenantStore
