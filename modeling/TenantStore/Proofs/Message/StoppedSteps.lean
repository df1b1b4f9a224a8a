import Mathlib.Data.List.Basic
import Mathlib.Tactic.Common
import TenantStore.Proofs.Database.Preservation
import TenantStore.Proofs.Message.FailedPuts

/-!
# Writes that are stopped between their steps

The context of a write can fire while the write runs.  A put keeps to some catalog all the same: it
is refused, or done, or taken back, or it leaves a message that was stored before with the inline
payload of the new one.  A delete from two databases keeps to a catalog unless it is stopped between
its steps; what is left then is an orphan.
-/

namespace TenantStore

namespace MessageHandles

variable {α : Type} {atomic : Bool}

/-- What is done in one of the databases leaves the layout. -/
theorem keepsLayout_onBlocks (operation : StoreM Database α) :
    (onBlocks operation).Preserves fun handles => handles.isAtomic = atomic := by
  rintro (database | ⟨blocks, index⟩) layout <;> exact layout

theorem keepsLayout_onIndex (operation : StoreM Database α) :
    (onIndex operation).Preserves fun handles => handles.isAtomic = atomic := by
  rintro (database | ⟨blocks, index⟩) layout <;> exact layout

end MessageHandles

namespace MessageStore

open MessageHandles

section Layout

variable {atomic : Bool} (looks : Looks) (context : Context) (tenant : String)

theorem keepsLayout_putAtOnce (message : EncodedMessage) (properties : Properties) :
    (putAtOnce context tenant message properties).Preserves fun handles =>
      handles.isAtomic = atomic :=
  StoreM.preserves_ofExcept_bind fun _ _ => keepsLayout_onIndex _

theorem keepsLayout_putInSteps (message : EncodedMessage) (properties : Properties) :
    (putInSteps looks tenant message properties).Preserves fun handles =>
      handles.isAtomic = atomic := by
  have writes : (writeBlock (looks 2) tenant message).Preserves fun handles =>
      handles.isAtomic = atomic :=
    StoreM.preserves_ofExcept_bind fun _ _ => keepsLayout_onBlocks _
  apply (keepsLayout_onBlocks _).bind
  intro existed
  apply writes.bind
  intro _
  apply (keepsLayout_onIndex _).attempt.bind
  intro indexed
  cases indexed with
  | ok _ => exact StoreM.preserves_pure ()
  | error problem =>
      cases existed with
      | true => exact StoreM.preserves_throw problem
      | false =>
          exact (keepsLayout_onBlocks _).attempt.bind fun _ => StoreM.preserves_throw problem

theorem keepsLayout_putUnder (message : Json) (properties : Properties) :
    (putUnder looks tenant message properties).Preserves fun handles =>
      handles.isAtomic = atomic := by
  apply StoreM.preserves_ofExcept_bind
  intro _ _
  cases properties.isEmpty with
  | true => exact StoreM.preserves_throw .emptyIndexSet
  | false =>
      apply StoreM.preserves_get_bind
      intro handles _
      cases handles.isAtomic with
      | true => exact (keepsLayout_putAtOnce _ _ _ _).bind fun _ => StoreM.preserves_pure _
      | false => exact (keepsLayout_putInSteps _ _ _ _).bind fun _ => StoreM.preserves_pure _

theorem keepsLayout_deleteUnder (identifier : String) :
    (deleteUnder looks tenant identifier).Preserves fun handles => handles.isAtomic = atomic := by
  apply StoreM.preserves_ofExcept_bind
  intro parsed _
  apply StoreM.preserves_get_bind
  intro handles _
  cases handles.isAtomic with
  | true => exact (keepsLayout_onIndex _).bind fun _ => StoreM.preserves_pure ()
  | false => exact (keepsLayout_onIndex _).bind fun _ => keepsLayout_onBlocks _

omit tenant in
theorem keepsLayout_clear :
    (clear context).Preserves fun handles => handles.isAtomic = atomic := by
  apply StoreM.preserves_get_bind
  intro handles _
  cases handles.isAtomic with
  | true => exact keepsLayout_onBlocks _
  | false => exact (keepsLayout_onBlocks _).bind fun _ => keepsLayout_onIndex _

end Layout

variable {catalog : MessageCatalog} {contents : Contents} {tenant : String} {message : Json}

theorem KeepsBlocks.written (kept : KeepsBlocks contents catalog) (tenant : String)
    (message : Json) (properties : Properties) :
    KeepsBlocks (written contents tenant message)
      (catalog.insert [tenant, (Message.encode message).identifier.toText]
        (.of message properties)) :=
  kept.put tenant message properties (writeChanges_encode tenant message)

/-- A block that was not there before is taken back without a trace. -/
theorem KeepsBlocks.afterFailure_of_new (kept : KeepsBlocks contents catalog)
    (isNew : catalog.find? [tenant, (Message.encode message).identifier.toText] = none) :
    KeepsBlocks (afterFailure contents tenant message) catalog := by
  have absent : contents.contains
      ((tenantBlocks tenant).blockKey (Message.encode message).identifier) = false := by
    rw [OrderedMap.contains, kept.content, isNew]
    rfl
  have takenBack := (kept.written tenant message .empty).delete tenant
    (Message.encode message).identifier
  rw [OrderedMap.erase_insert, OrderedMap.erase_eq_self isNew] at takenBack
  rw [afterFailure, absent]
  exact takenBack

/-- A message that was there before keeps its properties and gets the new inline payload. -/
theorem KeepsBlocks.afterFailure_of_stored (kept : KeepsBlocks contents catalog)
    {stored : StoredMessage}
    (found : catalog.find? [tenant, (Message.encode message).identifier.toText] = some stored) :
    KeepsBlocks (afterFailure contents tenant message)
      (catalog.insert [tenant, (Message.encode message).identifier.toText]
        (.of message stored.properties)) := by
  have present : contents.contains
      ((tenantBlocks tenant).blockKey (Message.encode message).identifier) = true := by
    rw [OrderedMap.contains, kept.content, found]
    rfl
  rw [afterFailure, present]
  exact kept.written tenant message stored.properties

end MessageStore

namespace MessageHandles.Holds

open MessageStore

variable {handles : MessageHandles} {catalog : MessageCatalog} {blocks index : Database}

/-- Two databases in whose index a put failed hold a catalog. -/
theorem exists_afterFailure (holds : (separate blocks index).Holds catalog) (tenant : String)
    (message : Json) :
    ∃ changed, (separate { blocks with contents := afterFailure blocks.contents tenant message }
      index).Holds changed := by
  cases found : catalog.find? [tenant, (Message.encode message).identifier.toText] with
  | none =>
      exact ⟨catalog, holds.blocksOpen, holds.indexOpen, holds.indexed,
        holds.kept.afterFailure_of_new found, holds.addressed⟩
  | some stored =>
      -- The index is as it was, so the items have to be those from before.
      have sameItems : MessageCatalog.items (catalog.insert
          [tenant, (Message.encode message).identifier.toText] (.of message stored.properties)) =
            catalog.items := by
        rw [MessageCatalog.items, OrderedMap.mapValues_insert]
        apply OrderedMap.insert_eq_self
        rw [OrderedMap.find?_mapValues, found]
        rfl
      refine ⟨_, holds.blocksOpen, holds.indexOpen, ?_, holds.kept.afterFailure_of_stored found,
        holds.addressed.insert tenant message stored.properties⟩
      rw [sameItems]
      exact holds.indexed

theorem exists_after_putAtOnce {database : Database} (holds : (shared database).Holds catalog)
    (context : Context) (tenant : String) (message : Json) {properties : Properties}
    (indexable : properties.isEmpty = false) :
    ∃ changed, ((putAtOnce context tenant (Message.encode message) properties).on
      (shared database)).2.Holds changed := by
  cases live : context.isLive with
  | true =>
      rcases on_putAtOnce live holds tenant message indexable with ⟨after, happens, afterHolds⟩
      rw [happens]
      exact ⟨_, afterHolds⟩
  | false =>
      have refuses : ¬database.Admits context := Database.not_admits (.inl live)
      obtain ⟨batch, planned⟩ : ∃ batch, writeChanges tenant (Message.encode message) = .ok batch :=
        ⟨_, writeChanges_encode tenant message⟩
      rcases ItemIndex.on_putWith_of_not_admits messageIndex refuses tenant
        (Message.encode message).identifier.toText batch properties with ⟨problem, refused⟩
      refine ⟨catalog, ?_⟩
      simp only [putAtOnce, planned, StoreM.on_bind, StoreM.on_ofExcept, on_onIndex,
        MessageHandles.index, MessageHandles.withIndex, refused]
      exact holds

theorem exists_after_putInSteps (holds : (separate blocks index).Holds catalog) (looks : Looks)
    (tenant : String) (message : Json) {properties : Properties}
    (indexable : properties.isEmpty = false) :
    ∃ changed, ((putInSteps looks tenant (Message.encode message) properties).on
      (separate blocks index)).2.Holds changed := by
  by_cases admits : blocks.Admits (looks 1) ∧ blocks.Admits (looks 2)
  · cases indexes : (looks 3).isLive with
    | true =>
        rcases on_putInSteps admits.1.2 admits.2.2 indexes holds tenant message indexable
          with ⟨after, happens, afterHolds⟩
        rw [happens]
        exact ⟨_, afterHolds⟩
    | false =>
        have refuses : ¬index.Admits (looks 3) := Database.not_admits (.inl indexes)
        rcases ItemIndex.on_putWith_of_not_admits messageIndex refuses tenant
          (Message.encode message).identifier.toText [] properties with ⟨problem, refused⟩
        rw [putInSteps_on_eq looks admits.1 admits.2, ItemIndex.put, refused]
        exact holds.exists_afterFailure tenant message
  · rcases putInSteps_on_of_not_admits admits tenant message properties index
      with ⟨problem, refused⟩
    rw [refused]
    exact ⟨catalog, holds⟩

/-- Databases that hold a catalog hold one after a put, wherever it is stopped. -/
theorem exists_after_putUnder (holds : handles.Holds catalog) (looks : Looks) (tenant : String)
    (message : Json) (properties : Properties) :
    ∃ changed, ((putUnder looks tenant message properties).on handles).2.Holds changed := by
  cases begins : (looks 0).isLive with
  | false =>
      rcases putUnder_on_of_stopped handles begins tenant message properties
        with ⟨problem, refused⟩
      rw [refused]
      exact ⟨catalog, holds⟩
  | true =>
      cases indexable : properties.isEmpty with
      | true =>
          rw [putUnder_on_of_isEmpty begins tenant message indexable]
          exact ⟨catalog, holds⟩
      | false =>
          rw [putUnder_on_of_indexable begins tenant message indexable]
          cases handles with
          | shared database =>
              have after := holds.exists_after_putAtOnce (looks 1) tenant message indexable
              simpa [MessageHandles.isAtomic] using after
          | separate blocks index =>
              have after := holds.exists_after_putInSteps looks tenant message indexable
              simpa [MessageHandles.isAtomic] using after

/-- Databases that hold a catalog hold one after a delete, unless it is stopped between the two. -/
theorem exists_after_deleteUnder (holds : handles.Holds catalog) {looks : Looks}
    (goesOn : handles.isAtomic = false → (looks 0).isLive = true → (looks 1).isLive = true)
    (tenant identifier : String) :
    ∃ changed, ((deleteUnder looks tenant identifier).on handles).2.Holds changed := by
  cases parses : ContentId.parse identifier with
  | error problem =>
      rw [deleteUnder_on_of_unreadable parses]
      exact ⟨catalog, holds⟩
  | ok parsed =>
      cases begins : (looks 0).isLive with
      | false =>
          rcases deleteUnder_on_of_stopped handles begins tenant identifier with ⟨problem, refused⟩
          rw [refused]
          exact ⟨catalog, holds⟩
      | true =>
          rcases on_deleteUnder begins (fun apart => goesOn apart begins) holds tenant parses
            with ⟨after, happens, afterHolds⟩
          rw [happens]
          exact ⟨_, afterHolds⟩

end MessageHandles.Holds

end TenantStore
