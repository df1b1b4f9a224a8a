import Mathlib.Data.List.Basic
import Mathlib.Tactic.Common
import TenantStore.Proofs.Message.Interruptions

/-!
# What a repair tells

A repair answers whether it removed its candidate.  For index entries the answer tells that they
were there without a block, and that they are gone.  For a block it tells only that the message is
not indexed: a candidate whose block is gone by the time of its turn is reported as well, though
nothing is removed.
-/

namespace TenantStore.MessageStore

open MessageHandles

variable {before after : MessageHandles} {context : Context} {tenant item : String}
  {identifier : ContentId} {answer : Bool}

/-- What is known once a repair of an orphan has answered. -/
structure OrphanVerdict (before : MessageHandles) (tenant : String) (identifier : ContentId)
    (answer : Bool) (after : MessageHandles) : Prop where
  told : answer = true ↔ before.isIndexed tenant identifier.toText = false
  unchanged : answer = false ∨ before.hasBlock tenant identifier = false → after = before
  gone : answer = true → after.hasBlock tenant identifier = false
  spares (key : Bytes) (notBlock : key ≠ (tenantBlocks tenant).blockKey identifier)
    (notPayload : key ≠ payloadKey tenant identifier) : AgreeAt after before key

/-- What is known once a repair of a dangling entry has answered. -/
structure DanglingVerdict (before : MessageHandles) (tenant item : String) (answer : Bool)
    (after : MessageHandles) : Prop where
  told : answer = true ↔
    holdsBlock before.blocks.contents tenant item = false ∧ before.isIndexed tenant item = true
  unchanged : answer = false → after = before
  gone : answer = true → ∀ key, messageIndex.IsEntry tenant item key →
    after.index.contents.contains key = false
  spares (key : Bytes) (notEntry : ¬messageIndex.IsEntry tenant item key) : AgreeAt after before key

theorem orphanVerdict (only : before.HoldsOnlyMessages)
    (happens : (removeOrphan context tenant identifier).on before = (.ok answer, after)) :
    OrphanVerdict before tenant identifier answer after := by
  rcases (ends_removeOrphan context tenant before identifier).of_ok happens with ⟨told, rfl⟩
  cases answer with
  | false => exact ⟨told, fun _ => rfl, nofun, fun _ _ _ => ⟨rfl, rfl⟩⟩
  | true =>
      refine ⟨told, fun nothing => ?_, fun _ => ?_, fun key notBlock notPayload => ?_⟩
      · exact only.withoutBlock_of_not_hasBlock (nothing.resolve_left nofun)
      · rw [if_pos rfl, Bool.eq_false_iff, ne_eq, hasBlock_withoutBlock]
        exact fun held => held.2 ⟨rfl, rfl⟩
      · exact agreeAt_withoutBlock notBlock notPayload

theorem danglingVerdict (only : before.HoldsOnlyMessages)
    (happens : (removeDangling context tenant item).on before = (.ok answer, after)) :
    DanglingVerdict before tenant item answer after := by
  rcases (ends_removeDangling context tenant before item).of_ok happens with ⟨told, rfl⟩
  cases answer with
  | false => exact ⟨told, fun _ => rfl, nofun, fun _ _ => ⟨rfl, rfl⟩⟩
  | true =>
      refine ⟨told, nofun, fun _ key isEntry => ?_, fun key notEntry => agreeAt_withoutEntries
        notEntry⟩
      rcases only.items with ⟨items, represents, _⟩
      rw [if_pos rfl, index_withoutEntries]
      exact represents.not_contains_of_isEntry isEntry

/-- In every state that a message store can reach, a repair answers if both databases admit it, and
its answer tells what it has found and done. -/
theorem verdicts_afterAll {handles : MessageHandles} (isEmpty : handles.IsEmpty)
    (steps : List MessageStep) (context : Context) (tenant : String) :
    ((handles.afterAll steps).blocks.Admits context → (handles.afterAll steps).index.Admits
      context →
        (∀ identifier, ∃ answer after, (removeOrphan context tenant identifier).on
            (handles.afterAll steps) = (.ok answer, after)) ∧
          ∀ item, ∃ answer after, (removeDangling context tenant item).on
            (handles.afterAll steps) = (.ok answer, after)) ∧
      (∀ identifier answer after, (removeOrphan context tenant identifier).on
          (handles.afterAll steps) = (.ok answer, after) →
        OrphanVerdict (handles.afterAll steps) tenant identifier answer after) ∧
      ∀ item answer after, (removeDangling context tenant item).on
          (handles.afterAll steps) = (.ok answer, after) →
        DanglingVerdict (handles.afterAll steps) tenant item answer after := by
  have only := isEmpty.holdsOnlyMessages.afterAll steps
  refine ⟨fun blocksAdmit indexAdmits => ?_, fun _ _ _ => orphanVerdict only,
    fun _ _ _ => danglingVerdict only⟩
  have safe := not_mayFail context tenant only.items blocksAdmit indexAdmits
  exact ⟨fun identifier => (ends_removeOrphan context tenant _ identifier).exists_ok (safe _),
    fun item => (ends_removeDangling context tenant _ item).exists_ok (safe _)⟩

/-- A candidate whose message was deleted meanwhile is reported as removed, though nothing
changes. -/
theorem verdicts_afterAll_of_deleted :
    let message : Json := .object [("kind", .text "note")]
    let properties : Properties := .ofList [("messageTimestamp", .text "2024-01-01")]
    let identifier := (Message.encode message).identifier
    let deleted := (MessageHandles.shared {}).afterAll
      [.write (.put {} "alice" message properties), .write (.delete {} "alice" identifier.toText)]
    (MessageHandles.shared {}).IsEmpty ∧ deleted.hasBlock "alice" identifier = false ∧
      (removeOrphan {} "alice" identifier).on deleted = (.ok true, deleted) := by
  intro message properties identifier deleted
  have isEmpty : (MessageHandles.shared {}).IsEmpty := ⟨rfl, rfl⟩
  have isNew : (MessageHandles.shared {}).IsNew := ⟨rfl, rfl, rfl, rfl⟩
  let writes : List MessageWrite :=
    [.put {} "alice" message properties, .delete {} "alice" identifier.toText]
  have holds : deleted.Holds (writes.foldl MessageWrite.effect .empty) :=
    isNew.holds.performAll writes
  have unbound : (writes.foldl MessageWrite.effect .empty).find? ["alice", identifier.toText] =
      none := by
    simp only [writes, List.foldl_cons, List.foldl_nil, MessageWrite.effect, MessageWrite.change,
      ContentId.parse_toText]
    exact (OrderedMap.find?_erase _ _ _).trans (if_pos rfl)
  have noBlock : deleted.hasBlock "alice" identifier = false := by
    rw [hasBlock, OrderedMap.contains, holds.kept.content, unbound]
    rfl
  have notIndexed : deleted.isIndexed "alice" identifier.toText = false := by
    rw [isIndexed, holds.indexed.contains_reverseKey, MessageCatalog.items,
      OrderedMap.find?_mapValues, unbound]
    rfl
  rcases verdicts_afterAll isEmpty (writes.map .write) {} "alice" with ⟨answers, verdict, _⟩
  rcases (answers ⟨holds.blocksOpen, rfl⟩ ⟨holds.indexOpen, rfl⟩).1 identifier
    with ⟨answer, after, happens⟩
  have told : OrphanVerdict deleted "alice" identifier answer after :=
    verdict identifier answer after happens
  rw [told.told.2 notIndexed, told.unchanged (Or.inr noBlock)] at happens
  exact ⟨isEmpty, noBlock, happens⟩

end TenantStore.MessageStore
