import Mathlib.Data.List.Basic
import Mathlib.Tactic.Common
import TenantStore.Proofs.Message.FailedPuts

/-!
# The scopes of a message store

Blocks, inline payloads and index entries lie in scopes of their own.  A scope holds nothing else,
and a payload lies beside its block; every batch that a message store applies keeps it so, whether
the halves of its messages fit together or not.
-/

namespace TenantStore

namespace MessageStore

/-- In the scopes of the blocks and of the payloads lie those of messages only, and every payload
lies beside its block. -/
structure HoldsOnlyMessages (contents : Contents) : Prop where
  blocks (key : Bytes) (contained : messageBlocks.scope.range.contains key = true)
    (bound : contents.contains key = true) :
    ∃ tenant identifier, key = (tenantBlocks tenant).blockKey identifier
  payloads (key : Bytes) (contained : payloadScope.range.contains key = true)
    (bound : contents.contains key = true) :
    ∃ tenant identifier, key = payloadKey tenant identifier ∧
      contents.contains ((tenantBlocks tenant).blockKey identifier) = true

/-- The index is that of items, all of which are named as messages are. -/
def IndexesOnlyMessages (contents : Contents) : Prop :=
  ∃ items : ItemCatalog, messageIndex.Represents contents items ∧
    ∀ key, (items.find? key).isSome = true →
      ∃ tenant identifier, key = [tenant, ContentId.toText identifier]

/-- Both, in one database. -/
def HoldsAndIndexesOnlyMessages (contents : Contents) : Prop :=
  HoldsOnlyMessages contents ∧ IndexesOnlyMessages contents

theorem payloadScope_not_contains_blockKey (tenant : String) (identifier : ContentId) :
    payloadScope.range.contains ((tenantBlocks tenant).blockKey identifier) = false :=
  Scope.root.not_contains_of_childNamed_ne (show "messages" ≠ "encoded-data" by decide)
    (contains_blockKey tenant identifier)

theorem messageBlocks_not_contains_payloadKey (tenant : String) (identifier : ContentId) :
    messageBlocks.scope.range.contains (payloadKey tenant identifier) = false :=
  Scope.root.not_contains_of_childNamed_ne (show "encoded-data" ≠ "messages" by decide)
    (contains_payloadKey tenant identifier)

theorem contains_applyAll_deleteChanges (contents : Contents) (tenant : String)
    (identifier : ContentId) (key : Bytes) :
    (contents.applyAll (deleteChanges tenant identifier)).contains key = true ↔
      contents.contains key = true ∧ key ≠ (tenantBlocks tenant).blockKey identifier ∧
        key ≠ payloadKey tenant identifier := by
  simp only [deleteChanges, BlockPartition.deleteChange, Contents.applyAll_cons,
    Contents.applyAll_nil, Contents.apply, OrderedMap.contains, OrderedMap.find?_erase]
  by_cases isPayload : key = payloadKey tenant identifier
  · simp [isPayload]
  · by_cases isBlock : key = (tenantBlocks tenant).blockKey identifier <;> simp [isPayload, isBlock]

namespace HoldsOnlyMessages

variable {contents after : Contents}

theorem empty : HoldsOnlyMessages .empty where
  blocks _ _ bound := by cases bound
  payloads _ _ bound := by cases bound

/-- Only keys outside the index count. -/
theorem of_frame (only : HoldsOnlyMessages contents)
    (frame : ∀ key, messageIndex.root.range.contains key = false →
      after.find? key = contents.find? key) :
    HoldsOnlyMessages after where
  blocks key contained bound := by
    have outside := Scope.root.not_contains_of_childNamed_ne (show "messages" ≠ "indexes" by decide)
      contained
    rw [OrderedMap.contains, frame key outside] at bound
    exact only.blocks key contained bound
  payloads key contained bound := by
    have outside :=
      Scope.root.not_contains_of_childNamed_ne (show "encoded-data" ≠ "indexes" by decide) contained
    rw [OrderedMap.contains, frame key outside] at bound
    rcases only.payloads key contained bound with ⟨tenant, identifier, same, beside⟩
    refine ⟨tenant, identifier, same, ?_⟩
    rw [OrderedMap.contains, frame _ (index_not_contains_blockKey tenant identifier)]
    exact beside

/-- What a batch within the range of the index does, does not count. -/
theorem applyAll_of_within (only : HoldsOnlyMessages contents) {batch : Batch}
    (within : batch.Within messageIndex.root.range) :
    HoldsOnlyMessages (contents.applyAll batch) := by
  apply only.of_frame
  intro key outside
  apply Contents.find?_applyAll_of_untouched
  intro change member touches
  rw [within change member key touches] at outside
  cases outside

theorem written (only : HoldsOnlyMessages contents) (tenant : String) (message : Json) :
    HoldsOnlyMessages (MessageStore.written contents tenant message) where
  blocks key contained bound := by
    rcases Contents.contains_of_contains_applyAll bound with before | ⟨value, writes⟩
    · exact only.blocks key contained before
    · rcases List.mem_cons.1 writes with isBlock | isPayload
      · cases isBlock
        exact ⟨tenant, (Message.encode message).identifier, rfl⟩
      · rw [List.mem_singleton] at isPayload
        have same : key = payloadKey tenant (Message.encode message).identifier := by
          cases payload : (Message.encode message).payload with
          | none => simp [payload, payloadChange] at isPayload
          | some text =>
              rw [payload, payloadChange, Change.put.injEq] at isPayload
              exact isPayload.1
        rw [same, messageBlocks_not_contains_payloadKey] at contained
        cases contained
  payloads key contained bound := by
    have isOld (isOther : key ≠ payloadKey tenant (Message.encode message).identifier) :
        contents.contains key = true := by
      have isBlock : key ≠ (tenantBlocks tenant).blockKey (Message.encode message).identifier := by
        rintro rfl
        rw [payloadScope_not_contains_blockKey] at contained
        cases contained
      rw [OrderedMap.contains, MessageStore.written, Contents.applyAll_cons, Contents.applyAll_cons,
        Contents.applyAll_nil, apply_payloadChange, if_neg isOther, Contents.apply,
        OrderedMap.find?_insert, if_neg isBlock] at bound
      exact bound
    by_cases isNew : key = payloadKey tenant (Message.encode message).identifier
    · refine ⟨tenant, _, isNew, ?_⟩
      rw [OrderedMap.contains, find?_written_blockKey, if_pos ⟨rfl, rfl⟩]
      rfl
    · rcases only.payloads key contained (isOld isNew) with ⟨owner, identifier, same, beside⟩
      refine ⟨owner, identifier, same, ?_⟩
      rw [OrderedMap.contains, find?_written_blockKey]
      split
      · rfl
      · exact beside

theorem deleted (only : HoldsOnlyMessages contents) (tenant : String) (identifier : ContentId) :
    HoldsOnlyMessages (contents.applyAll (deleteChanges tenant identifier)) where
  blocks key contained bound :=
    only.blocks key contained ((contains_applyAll_deleteChanges _ _ _ _).1 bound).1
  payloads key contained bound := by
    rw [contains_applyAll_deleteChanges] at bound
    rcases only.payloads key contained bound.1 with ⟨owner, other, rfl, beside⟩
    refine ⟨owner, other, rfl, ?_⟩
    rw [contains_applyAll_deleteChanges]
    refine ⟨beside, ?_, blockKey_ne_payloadKey _ _ _ _⟩
    intro same
    rw [blockKey_inj] at same
    exact bound.2.2 (by rw [same.1, same.2])

theorem cleared (contents : Contents) : HoldsOnlyMessages (contents.applyAll clearChanges) := by
  have gone (key : Bytes) (bound : (contents.applyAll clearChanges).contains key = true) :
      messageBlocks.scope.range.contains key = false ∧ payloadScope.range.contains key = false := by
    simp only [clearChanges, BlockPartition.clearChange, OrderedMap.contains,
      Contents.applyAll_cons, Contents.applyAll_nil, Contents.apply,
      OrderedMap.find?_keepIf] at bound
    split at bound
    · rename_i outsidePayloads
      split at bound
      · rename_i outsideBlocks
        exact ⟨by simpa using outsideBlocks, by simpa using outsidePayloads⟩
      · cases bound
    · cases bound
  constructor
  · intro key contained bound
    rw [(gone key bound).1] at contained
    cases contained
  · intro key contained bound
    rw [(gone key bound).2] at contained
    cases contained

end HoldsOnlyMessages

namespace IndexesOnlyMessages

variable {contents : Contents}

theorem empty : IndexesOnlyMessages .empty :=
  ⟨.empty, .empty messageIndex, fun _ bound => by cases bound⟩

theorem applyAll_of_avoids (only : IndexesOnlyMessages contents) {batch : Batch}
    (avoids : batch.Avoids messageIndex.root.range) :
    IndexesOnlyMessages (contents.applyAll batch) := by
  rcases only with ⟨items, represents, named⟩
  exact ⟨items, represents.applyAll_of_avoids avoids, named⟩

theorem put (only : IndexesOnlyMessages contents) {tenant : String} {identifier : ContentId}
    {properties : Properties} {batch : Batch}
    (planned : messageIndex.putBatch contents tenant identifier.toText properties = .ok batch) :
    IndexesOnlyMessages (contents.applyAll batch) ∧ batch.Within messageIndex.root.range := by
  rcases only with ⟨items, represents, named⟩
  have indexable : properties.isEmpty = false := by
    cases nothing : properties.isEmpty with
    | false => rfl
    | true =>
        simp [ItemIndex.putBatch, nothing, throw, throwThe, MonadExceptOf.throw, bind, Except.bind]
          at planned
  refine ⟨⟨_, represents.put indexable planned, fun key bound => ?_⟩,
    represents.within_putBatch indexable planned⟩
  rw [OrderedMap.find?_insert] at bound
  split at bound
  · rename_i same
    exact ⟨tenant, identifier, same⟩
  · exact named key bound

theorem delete (only : IndexesOnlyMessages contents) {tenant item : String}
    {removal? : Option Batch}
    (planned : messageIndex.deleteBatch? contents tenant item = .ok removal?) :
    IndexesOnlyMessages (contents.applyAll (removal?.getD [])) ∧
      Batch.Within (removal?.getD []) messageIndex.root.range := by
  rcases only with ⟨items, represents, named⟩
  refine ⟨⟨_, represents.delete planned, fun key bound => ?_⟩,
    represents.within_deleteBatch? planned⟩
  rw [OrderedMap.find?_erase] at bound
  split at bound
  · cases bound
  · exact named key bound

theorem cleared (contents : Contents) :
    IndexesOnlyMessages (contents.applyAll [messageIndex.clearChange]) :=
  ⟨.empty, .clear messageIndex contents, fun _ bound => by cases bound⟩

end IndexesOnlyMessages

end MessageStore

end TenantStore
