import Mathlib.Data.List.Basic
import Mathlib.Tactic.Common
import TenantStore.Proofs.Block.Listing
import TenantStore.Proofs.Database.Preservation
import TenantStore.Proofs.Message.Repair
import TenantStore.Proofs.Message.Runs

/-!
# Interrupted writes

A write of two databases has two steps, and it may stop after the first of them: a put that wrote
the block, a delete that removed the index entries, a clear that removed the blocks.  Whatever is
written, interrupted, repaired, closed and opened again, the scopes of the store hold blocks,
payloads and index entries of messages only, and every payload lies beside its block.
-/

namespace TenantStore

namespace MessageStore

open MessageHandles

/-- The first step of a put into two databases: the block is written.  Whether it was there before
is told. -/
def beginPut (context : Context) (tenant : String) (message : EncodedMessage) :
    StoreM MessageHandles Bool := do
  let existed ← onBlocks ((tenantBlocks tenant).has context message.identifier)
  writeBlock context tenant message
  pure existed

/-- The second step of a put into two databases: the index is written, or the block taken back. -/
def finishPut (context : Context) (tenant : String) (message : EncodedMessage)
    (properties : Properties) (existed : Bool) : StoreM MessageHandles Unit := do
  let indexed ← StoreM.attempt <| onIndex <|
    messageIndex.put context tenant message.identifier.toText properties
  match indexed with
  | .ok () => pure ()
  | .error problem =>
    if !existed then
      let _ ← StoreM.attempt (removeBlock .background tenant message.identifier)
    throw problem

theorem putInSteps_eq_bind (context : Context) (tenant : String) (message : EncodedMessage)
    (properties : Properties) :
    putInSteps context.steady tenant message properties =
      beginPut context tenant message >>= finishPut context tenant message properties := by
  simp only [beginPut, bind_assoc, pure_bind]
  rfl

end MessageStore

namespace MessageWrite

open MessageHandles MessageStore

/-- The first step of a write of two databases.  Whether it found something there is told. -/
def firstStep : MessageWrite → StoreM MessageHandles Bool
  | .put context tenant message properties => do
    StoreM.ofExcept context.check
    if properties.isEmpty then throw .emptyIndexSet
    beginPut context tenant (Message.encode message)
  | .delete context tenant identifier => do
    let identifier ← StoreM.ofExcept (ContentId.parse identifier)
    onIndex (messageIndex.delete context tenant identifier.toText)
  | .clear context => do
    onBlocks (Database.write context clearChanges)
    pure true

/-- The second step of a write of two databases. -/
def secondStep (write : MessageWrite) (found : Bool) : StoreM MessageHandles Unit :=
  match write with
  | .put context tenant message properties =>
    finishPut context tenant (Message.encode message) properties found
  | .delete context tenant identifier => do
    let identifier ← StoreM.ofExcept (ContentId.parse identifier)
    removeBlock context tenant identifier
  | .clear context => onIndex (messageIndex.clear context)

/-- A write of two databases is its two steps. -/
theorem operation_on_separate (write : MessageWrite) (blocks index : Database) :
    write.operation.on (.separate blocks index) =
      (write.firstStep >>= write.secondStep).on (.separate blocks index) := by
  cases write with
  | put context tenant message properties =>
      simp only [operation, firstStep, secondStep, MessageStore.put, putUnder, bind_assoc,
        StoreM.on_bind, StoreM.on_ofExcept]
      cases context.check with
      | error problem => rfl
      | ok _ =>
          cases properties.isEmpty with
          | true => rfl
          | false =>
              simp only [Bool.false_eq_true, if_false, StoreM.on_pure, StoreM.on_get,
                MessageHandles.isAtomic, putInSteps_eq_bind, StoreM.on_bind]
              cases (beginPut context tenant (Message.encode message)).on
                (.separate blocks index) with
              | mk result after =>
                  cases result with
                  | error problem => rfl
                  | ok existed =>
                      simp only
                      cases (finishPut context tenant (Message.encode message) properties
                        existed).on after with
                      | mk outcome afterward => cases outcome <;> rfl
  | delete context tenant identifier =>
      simp only [operation, firstStep, secondStep, MessageStore.delete, deleteUnder, bind_assoc,
        StoreM.on_bind, StoreM.on_ofExcept]
      cases ContentId.parse identifier with
      | error problem => rfl
      | ok parsed =>
          simp only [StoreM.on_get, MessageHandles.isAtomic, Bool.false_eq_true, if_false,
            deleteInSteps, StoreM.on_bind]
  | clear context =>
      simp only [operation, firstStep, secondStep, MessageStore.clear, bind_assoc, pure_bind,
        StoreM.on_bind, StoreM.on_get, MessageHandles.isAtomic, Bool.false_eq_true, if_false]

end MessageWrite

namespace MessageHandles

/-- Databases of the given layout whose scopes hold only what belongs to messages. -/
def IsOrderly (atomic : Bool) (handles : MessageHandles) : Prop :=
  handles.isAtomic = atomic ∧ handles.HoldsOnlyMessages

variable {α : Type} {operation : StoreM Database α}

theorem preserves_onBlocks_of_shared
    (preserves : operation.Preserves fun database =>
      MessageStore.HoldsAndIndexesOnlyMessages database.contents) :
    (onBlocks operation).Preserves (IsOrderly true) := by
  rintro (database | ⟨blocks, index⟩) ⟨layout, only⟩
  · have after := preserves database ⟨only.blocks, only.items⟩
    exact ⟨rfl, after.1, after.2⟩
  · cases layout

theorem preserves_onBlocks_of_separate
    (preserves : operation.Preserves fun database =>
      MessageStore.HoldsOnlyMessages database.contents) :
    (onBlocks operation).Preserves (IsOrderly false) := by
  rintro (database | ⟨blocks, index⟩) ⟨layout, only⟩
  · cases layout
  · exact ⟨rfl, preserves blocks only.blocks, only.items⟩

theorem preserves_onIndex_of_separate
    (preserves : operation.Preserves fun database =>
      MessageStore.IndexesOnlyMessages database.contents) :
    (onIndex operation).Preserves (IsOrderly false) := by
  rintro (database | ⟨blocks, index⟩) ⟨layout, only⟩
  · cases layout
  · exact ⟨rfl, only.blocks, preserves index only.items⟩

/-- In one database it makes no difference what an operation is run on. -/
theorem preserves_onIndex_of_shared
    (preserves : operation.Preserves fun database =>
      MessageStore.HoldsAndIndexesOnlyMessages database.contents) :
    (onIndex operation).Preserves (IsOrderly true) := by
  rintro (database | ⟨blocks, index⟩) ⟨layout, only⟩
  · have after := preserves database ⟨only.blocks, only.items⟩
    exact ⟨rfl, after.1, after.2⟩
  · cases layout

variable {atomic : Bool}

/-- An operation that leaves every property of the contents does no harm. -/
theorem preserves_onBlocks
    (preserves : ∀ good : Contents → Prop, operation.Preserves fun database =>
      good database.contents) :
    (onBlocks operation).Preserves (IsOrderly atomic) := by
  cases atomic with
  | true => exact preserves_onBlocks_of_shared (preserves _)
  | false => exact preserves_onBlocks_of_separate (preserves _)

theorem preserves_onIndex
    (preserves : ∀ good : Contents → Prop, operation.Preserves fun database =>
      good database.contents) :
    (onIndex operation).Preserves (IsOrderly atomic) := by
  cases atomic with
  | true => exact preserves_onIndex_of_shared (preserves _)
  | false => exact preserves_onIndex_of_separate (preserves _)

/-- What is done in each layout is looked at for that layout. -/
theorem preserves_ite_isAtomic {once inSteps : StoreM MessageHandles α}
    (shared : once.Preserves (IsOrderly true)) (separate : inSteps.Preserves (IsOrderly false)) :
    ((get : StoreM MessageHandles MessageHandles) >>= fun handles =>
      if handles.isAtomic then once else inSteps).Preserves (IsOrderly atomic) := by
  apply StoreM.preserves_get_bind
  rintro handles ⟨layout, _⟩
  rw [layout]
  cases atomic with
  | true => exact shared
  | false => exact separate

end MessageHandles

namespace MessageStore

open MessageHandles

variable {atomic : Bool} (context : Context) (tenant : String)

theorem preserves_writeBlock (message : Json) :
    (writeBlock context tenant (Message.encode message)).Preserves (IsOrderly false) := by
  apply StoreM.preserves_ofExcept_bind
  intro batch planned
  rw [writeChanges_encode] at planned
  cases planned
  exact preserves_onBlocks_of_separate
    (Database.preserves_write fun _ only => only.written tenant message)

theorem preserves_removeBlock (identifier : ContentId) :
    (removeBlock context tenant identifier).Preserves (IsOrderly false) :=
  preserves_onBlocks_of_separate
    (Database.preserves_write fun _ only => only.deleted tenant identifier)

theorem preserves_beginPut (message : Json) :
    (beginPut context tenant (Message.encode message)).Preserves (IsOrderly false) := by
  have looks : (onBlocks ((tenantBlocks tenant).has context
      (Message.encode message).identifier)).Preserves (IsOrderly false) :=
    preserves_onBlocks fun _ => Database.preserves_read _
  exact looks.bind fun existed => (preserves_writeBlock context tenant message).bind fun _ =>
    StoreM.preserves_pure existed

theorem preserves_finishPut (message : EncodedMessage) (properties : Properties) (existed : Bool) :
    (finishPut context tenant message properties existed).Preserves (IsOrderly false) := by
  have indexes :
      (onIndex (messageIndex.put context tenant message.identifier.toText properties)).Preserves
      (IsOrderly false) := by
    apply preserves_onIndex_of_separate
    apply Database.preserves_update
    intro contents _ batch only planned
    cases writes : messageIndex.putBatch contents tenant message.identifier.toText properties with
    | error problem =>
        rw [writes] at planned
        cases planned
    | ok changes =>
        rw [writes] at planned
        cases planned
        rw [List.append_nil]
        exact (only.put writes).1
  apply indexes.attempt.bind
  intro result
  cases result with
  | ok _ => exact StoreM.preserves_pure ()
  | error problem =>
      cases existed with
      | true => exact StoreM.preserves_throw problem
      | false =>
          exact (preserves_removeBlock .background tenant message.identifier).attempt.bind fun _ =>
            StoreM.preserves_throw problem

theorem preserves_putAtOnce (message : Json) (properties : Properties) :
    (putAtOnce context tenant (Message.encode message) properties).Preserves (IsOrderly true) := by
  apply StoreM.preserves_ofExcept_bind
  intro changes planned
  have avoids := avoids_writeChanges planned
  rw [writeChanges_encode] at planned
  cases planned
  apply preserves_onIndex_of_shared
  apply Database.preserves_update
  rintro contents _ batch ⟨onlyMessages, onlyItems⟩ planned
  cases writes : messageIndex.putBatch contents tenant (Message.encode message).identifier.toText
      properties with
  | error problem =>
      rw [writes] at planned
      cases planned
  | ok entries =>
      rw [writes] at planned
      cases planned
      rw [Contents.applyAll_append]
      have indexed := onlyItems.put writes
      exact ⟨(onlyMessages.applyAll_of_within indexed.2).written tenant message,
        indexed.1.applyAll_of_avoids avoids⟩

theorem preserves_put (message : Json) (properties : Properties) :
    (put context tenant message properties).Preserves (IsOrderly atomic) := by
  have shared := (preserves_putAtOnce context tenant message properties).bind fun _ =>
    StoreM.preserves_pure (Message.encode message).identifier
  have separate : (putInSteps context.steady tenant (Message.encode message) properties >>= fun _ =>
      pure (Message.encode message).identifier).Preserves (IsOrderly false) := by
    rw [putInSteps_eq_bind]
    have steps := (preserves_beginPut context tenant message).bind fun existed =>
      preserves_finishPut context tenant (Message.encode message) properties existed
    exact steps.bind fun _ => StoreM.preserves_pure _
  apply StoreM.preserves_ofExcept_bind
  intro _ _
  cases properties.isEmpty with
  | true => exact StoreM.preserves_throw .emptyIndexSet
  | false => exact preserves_ite_isAtomic shared separate

theorem preserves_index_delete (item : String) :
    (onIndex (messageIndex.delete context tenant item)).Preserves (IsOrderly false) := by
  apply preserves_onIndex_of_separate
  apply Database.preserves_update
  intro contents _ batch only planned
  cases removes : messageIndex.deleteBatch? contents tenant item with
  | error problem =>
      rw [removes] at planned
      cases planned
  | ok removal? =>
      rw [removes] at planned
      cases planned
      rw [List.append_nil]
      exact (only.delete removes).1

theorem preserves_index_deleteWith (identifier : ContentId) :
    (onIndex (messageIndex.deleteWith context tenant identifier.toText
      (deleteChanges tenant identifier))).Preserves (IsOrderly true) := by
  apply preserves_onIndex_of_shared
  apply Database.preserves_update
  rintro contents _ batch ⟨onlyMessages, onlyItems⟩ planned
  cases removes : messageIndex.deleteBatch? contents tenant identifier.toText with
  | error problem =>
      rw [removes] at planned
      cases planned
  | ok removal? =>
      rw [removes] at planned
      cases planned
      rw [Contents.applyAll_append]
      have unindexed := onlyItems.delete removes
      exact ⟨(onlyMessages.applyAll_of_within unindexed.2).deleted tenant identifier,
        unindexed.1.applyAll_of_avoids (avoids_deleteChanges tenant identifier)⟩

theorem preserves_delete (identifier : String) :
    (delete context tenant identifier).Preserves (IsOrderly atomic) := by
  apply StoreM.preserves_ofExcept_bind
  intro parsed _
  apply preserves_ite_isAtomic
  · exact (preserves_index_deleteWith context tenant parsed).bind fun _ => StoreM.preserves_pure ()
  · exact (preserves_index_delete context tenant parsed.toText).bind fun _ =>
      preserves_removeBlock context tenant parsed

omit tenant in
theorem preserves_clearBlocks :
    (onBlocks (Database.write context clearChanges)).Preserves (IsOrderly false) :=
  preserves_onBlocks_of_separate (Database.preserves_write fun _ _ => .cleared _)

omit tenant in
theorem preserves_clear : (clear context).Preserves (IsOrderly atomic) := by
  apply preserves_ite_isAtomic
  · apply preserves_onBlocks_of_shared
    apply Database.preserves_write
    intro contents _
    rw [Contents.applyAll_append]
    refine ⟨(HoldsOnlyMessages.cleared contents).applyAll_of_within ?_, .cleared _⟩
    intro change member key touches
    cases List.mem_singleton.1 member
    exact touches
  · exact (preserves_clearBlocks context).bind fun _ =>
      preserves_onIndex_of_separate (Database.preserves_write fun _ _ => .cleared _)

theorem preserves_removeOrphan (identifier : ContentId) :
    (removeOrphan context tenant identifier).Preserves (IsOrderly atomic) := by
  rintro handles ⟨layout, only⟩
  rcases (ends_removeOrphan context tenant handles identifier).after_cases with same | ⟨_, repaired⟩
  · rw [same]
    exact ⟨layout, only⟩
  · rw [repaired]
    exact ⟨(isAtomic_withoutBlock handles tenant identifier).trans layout,
      only.withoutBlock tenant identifier⟩

theorem preserves_removeDangling (item : String) :
    (removeDangling context tenant item).Preserves (IsOrderly atomic) := by
  rintro handles ⟨layout, only⟩
  rcases (ends_removeDangling context tenant handles item).after_cases with same | ⟨_, repaired⟩
  · rw [same]
    exact ⟨layout, only⟩
  · rw [repaired]
    exact ⟨(isAtomic_withoutEntries handles tenant item).trans layout,
      only.withoutEntries tenant item⟩

omit context tenant in
theorem preserves_removed {α : Type} {good : MessageHandles → Prop} {candidates : List α}
    {remove : α → StoreM MessageHandles Bool}
    (each : ∀ candidate, (remove candidate).Preserves good) :
    (removed candidates remove).Preserves good := by
  have tells (candidate : α) :
      (remove candidate >>= fun outcome => pure (candidate, outcome)).Preserves good :=
    (each candidate).bind fun outcome => StoreM.preserves_pure (candidate, outcome)
  exact (StoreM.preserves_mapM tells).bind fun outcomes => StoreM.preserves_pure _

theorem preserves_reconcile : (reconcile context tenant).Preserves (IsOrderly atomic) := by
  have indexed : (onIndex (messageIndex.identifiers context tenant)).Preserves (IsOrderly atomic) :=
    preserves_onIndex fun _ => Database.preserves_read _
  apply indexed.bind
  intro items
  have lists : (onBlocks ((tenantBlocks tenant).identifiers context)).Preserves
      (IsOrderly atomic) := by
    apply preserves_onBlocks
    intro good database holds
    rw [BlockPartition.on_identifiers]
    exact holds
  apply lists.bind
  intro stored
  apply (preserves_removed (preserves_removeOrphan context tenant)).bind
  intro orphaned
  apply (preserves_removed (preserves_removeDangling context tenant)).bind
  exact fun _ => StoreM.preserves_pure _

end MessageStore

namespace MessageWrite

theorem preserves_operation {atomic : Bool} (write : MessageWrite) :
    write.operation.Preserves (MessageHandles.IsOrderly atomic) := by
  cases write with
  | put context tenant message properties =>
      exact (MessageStore.preserves_put context tenant message properties).bind fun _ =>
        StoreM.preserves_pure ()
  | delete context tenant identifier =>
      exact MessageStore.preserves_delete context tenant identifier
  | clear context => exact MessageStore.preserves_clear context

theorem preserves_firstStep (write : MessageWrite) :
    write.firstStep.Preserves (MessageHandles.IsOrderly false) := by
  cases write with
  | put context tenant message properties =>
      apply StoreM.preserves_ofExcept_bind
      intro _ _
      cases properties.isEmpty with
      | true => exact StoreM.preserves_throw .emptyIndexSet
      | false => exact MessageStore.preserves_beginPut context tenant message
  | delete context tenant identifier =>
      apply StoreM.preserves_ofExcept_bind
      intro parsed _
      exact MessageStore.preserves_index_delete context tenant parsed.toText
  | clear context =>
      exact (MessageStore.preserves_clearBlocks context).bind fun _ => StoreM.preserves_pure true

end MessageWrite

/-- What can happen to the databases of a message store. -/
inductive MessageStep where
  | write (write : MessageWrite)
  /-- A write that stops after the first of its two steps; in one database there are no two
  steps. -/
  | interrupted (write : MessageWrite)
  | removeOrphan (context : Context) (tenant : String) (identifier : ContentId)
  | removeDangling (context : Context) (tenant item : String)
  | reconcile (context : Context) (tenant : String)
  | closeBlocks
  | closeIndex
  | reopen

namespace MessageStep

open MessageHandles

/-- A step as an operation on the databases; an interrupted write does only its first step. -/
def operation : MessageStep → StoreM MessageHandles Unit
  | .write written => written.operation
  | .interrupted written => do
    if (← get).isAtomic then pure ()
    else
      let _ ← written.firstStep
  | .removeOrphan context tenant identifier => do
    let _ ← MessageStore.removeOrphan context tenant identifier
  | .removeDangling context tenant item => do
    let _ ← MessageStore.removeDangling context tenant item
  | .reconcile context tenant => do
    let _ ← MessageStore.reconcile context tenant
  | .closeBlocks => onBlocks Database.close
  | .closeIndex => onIndex Database.close
  | .reopen => MessageStore.reopen

theorem preserves_operation {atomic : Bool} (step : MessageStep) :
    step.operation.Preserves (IsOrderly atomic) := by
  cases step with
  | write write => exact write.preserves_operation
  | interrupted write =>
      apply preserves_ite_isAtomic
      · exact StoreM.preserves_pure ()
      · exact write.preserves_firstStep.bind fun _ => StoreM.preserves_pure ()
  | removeOrphan context tenant identifier =>
      exact (MessageStore.preserves_removeOrphan context tenant identifier).bind fun _ =>
        StoreM.preserves_pure ()
  | removeDangling context tenant item =>
      exact (MessageStore.preserves_removeDangling context tenant item).bind fun _ =>
        StoreM.preserves_pure ()
  | reconcile context tenant =>
      exact (MessageStore.preserves_reconcile context tenant).bind fun _ => StoreM.preserves_pure ()
  | closeBlocks => exact preserves_onBlocks fun _ => Database.preserves_close
  | closeIndex => exact preserves_onIndex fun _ => Database.preserves_close
  | reopen =>
      exact (preserves_onBlocks fun _ => Database.preserves_reopen).bind fun _ =>
        preserves_onIndex fun _ => Database.preserves_reopen

end MessageStep

namespace MessageHandles

/-- The databases after a step. -/
def after (handles : MessageHandles) (step : MessageStep) : MessageHandles :=
  (step.operation.on handles).2

/-- The databases after a sequence of steps. -/
def afterAll (handles : MessageHandles) (steps : List MessageStep) : MessageHandles :=
  steps.foldl after handles

/-- Databases that hold nothing, open or not. -/
structure IsEmpty (handles : MessageHandles) : Prop where
  noBlocks : handles.blocks.contents = .empty
  noItems : handles.index.contents = .empty

variable {handles : MessageHandles}

theorem IsEmpty.holdsOnlyMessages (isEmpty : handles.IsEmpty) : handles.HoldsOnlyMessages where
  blocks := by
    rw [isEmpty.noBlocks]
    exact .empty
  items := by
    rw [isEmpty.noItems]
    exact .empty

theorem HoldsOnlyMessages.after (only : handles.HoldsOnlyMessages) (step : MessageStep) :
    (handles.after step).HoldsOnlyMessages :=
  (step.preserves_operation handles ⟨rfl, only⟩).2

/-- Whatever happens, the scopes hold only what belongs to messages. -/
theorem HoldsOnlyMessages.afterAll (only : handles.HoldsOnlyMessages) (steps : List MessageStep) :
    (handles.afterAll steps).HoldsOnlyMessages := by
  induction steps generalizing handles with
  | nil => exact only
  | cons step steps ih => exact ih (only.after step)

/-- A put that stops after its first step leaves the block, and the index as it was. -/
theorem after_interrupted_put {blocks : Database} {context : Context} {properties : Properties}
    (admits : blocks.Admits context) (indexable : properties.isEmpty = false) (index : Database)
    (tenant : String) (message : Json) :
    (separate blocks index).after (.interrupted (.put context tenant message properties)) =
      .separate { blocks with contents := MessageStore.written blocks.contents tenant message }
        index := by
  have live := context.check_eq_ok_iff.2 admits.2
  simp only [MessageHandles.after, MessageStep.operation, MessageWrite.firstStep,
    MessageStore.beginPut, StoreM.on_bind, StoreM.on_get, isAtomic, Bool.false_eq_true, if_false,
    StoreM.on_ofExcept, live,
    indexable, MessageStore.on_onBlocks, MessageHandles.blocks, BlockPartition.has,
    Database.on_read admits, withBlocks, MessageStore.writeBlock, MessageStore.writeChanges_encode,
    Database.on_write admits]
  rfl

end MessageHandles

end TenantStore
