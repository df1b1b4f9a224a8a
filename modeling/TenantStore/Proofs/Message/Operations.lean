import Mathlib.Data.List.Basic
import Mathlib.Tactic.Common
import TenantStore.Proofs.Message.Catalog

/-!
# The operations of a message store

On open databases that hold a catalog, a put under a live context binds the message, a delete
unbinds its identifier and a clear leaves nothing, whether the blocks and the index share a database
or not.  An operation that fails leaves the databases as they are.
-/

namespace TenantStore

/-- Every message is bound under the identifier of its block. -/
def MessageCatalog.IsAddressed (catalog : MessageCatalog) : Prop :=
  ∀ key stored, catalog.find? key = some stored →
    ∃ tenant, key = [tenant, stored.identifier.toText]

namespace MessageCatalog.IsAddressed

variable {catalog : MessageCatalog}

theorem empty : IsAddressed .empty := by
  intro key stored found
  cases found

theorem insert (addressed : catalog.IsAddressed) (tenant : String) (message : Json)
    (properties : Properties) :
    IsAddressed (catalog.insert [tenant, (Message.encode message).identifier.toText]
      (.of message properties)) := by
  intro key stored found
  rw [OrderedMap.find?_insert] at found
  split at found
  · rename_i same
    cases found
    exact ⟨tenant, same⟩
  · exact addressed key stored found

theorem erase (addressed : catalog.IsAddressed) (removed : List String) :
    IsAddressed (catalog.erase removed) := by
  intro key stored found
  rw [OrderedMap.find?_erase] at found
  split at found
  · cases found
  · exact addressed key stored found

end MessageCatalog.IsAddressed

/-- Open databases that hold a catalog of messages. -/
structure MessageHandles.Holds (handles : MessageHandles) (catalog : MessageCatalog) : Prop where
  blocksOpen : handles.blocks.isOpen = true
  indexOpen : handles.index.isOpen = true
  indexed : MessageStore.messageIndex.Represents handles.index.contents catalog.items
  kept : MessageStore.KeepsBlocks handles.blocks.contents catalog
  addressed : catalog.IsAddressed

namespace MessageHandles.Holds

variable {blocks index database : Database} {catalog : MessageCatalog}

theorem shared_iff : (shared database).Holds catalog ↔ database.isOpen = true ∧
    MessageStore.messageIndex.Represents database.contents catalog.items ∧
      MessageStore.KeepsBlocks database.contents catalog ∧ catalog.IsAddressed :=
  ⟨fun holds => ⟨holds.blocksOpen, holds.indexed, holds.kept, holds.addressed⟩,
    fun ⟨isOpen, indexed, kept, addressed⟩ => ⟨isOpen, isOpen, indexed, kept, addressed⟩⟩

end MessageHandles.Holds

/-- Databases that are open and hold nothing. -/
structure MessageHandles.IsNew (handles : MessageHandles) : Prop where
  blocksOpen : handles.blocks.isOpen = true
  noBlocks : handles.blocks.contents = .empty
  indexOpen : handles.index.isOpen = true
  noItems : handles.index.contents = .empty

theorem MessageHandles.IsNew.holds {handles : MessageHandles} (isNew : handles.IsNew) :
    handles.Holds .empty where
  blocksOpen := isNew.blocksOpen
  indexOpen := isNew.indexOpen
  indexed := by
    rw [isNew.noItems]
    exact .empty MessageStore.messageIndex
  kept := by
    rw [isNew.noBlocks]
    exact .empty
  addressed := .empty

namespace MessageStore

variable {handles : MessageHandles} {catalog : MessageCatalog} {context : Context}
  {blocks index database : Database}

@[simp]
theorem withBlocks_blocks (handles : MessageHandles) :
    handles.withBlocks handles.blocks = handles := by
  cases handles <;> rfl

@[simp]
theorem withIndex_index (handles : MessageHandles) : handles.withIndex handles.index = handles := by
  cases handles <;> rfl

theorem on_onBlocks {α : Type} (operation : StoreM Database α) (handles : MessageHandles) :
    (MessageHandles.onBlocks operation).on handles =
      ((operation.on handles.blocks).1, handles.withBlocks (operation.on handles.blocks).2) := rfl

theorem on_onIndex {α : Type} (operation : StoreM Database α) (handles : MessageHandles) :
    (MessageHandles.onIndex operation).on handles =
      ((operation.on handles.index).1, handles.withIndex (operation.on handles.index).2) := rfl

theorem putUnder_on_of_isEmpty {looks : Looks} (live : (looks 0).isLive = true) (tenant : String)
    (message : Json) {properties : Properties} (nothing : properties.isEmpty = true)
    (handles : MessageHandles) :
    (putUnder looks tenant message properties).on handles = (.error .emptyIndexSet, handles) := by
  rw [putUnder, StoreM.on_bind, StoreM.on_ofExcept, (looks 0).check_eq_ok_iff.2 live, nothing]
  rfl

theorem put_on_of_isEmpty (live : context.isLive = true) (tenant : String) (message : Json)
    {properties : Properties} (nothing : properties.isEmpty = true) (handles : MessageHandles) :
    (put context tenant message properties).on handles = (.error .emptyIndexSet, handles) :=
  @putUnder_on_of_isEmpty context.steady live tenant message properties nothing handles

/-- A put that a live context lets begin is one of its two forms. -/
theorem putUnder_on_of_indexable {looks : Looks} (live : (looks 0).isLive = true) (tenant : String)
    (message : Json) {properties : Properties} (indexable : properties.isEmpty = false)
    (handles : MessageHandles) :
    (putUnder looks tenant message properties).on handles =
      ((if handles.isAtomic then putAtOnce (looks 1) tenant (Message.encode message) properties
        else putInSteps looks tenant (Message.encode message) properties) >>= fun _ =>
          pure (Message.encode message).identifier :
    StoreM MessageHandles ContentId).on handles := by
  rw [putUnder, StoreM.on_bind, StoreM.on_ofExcept, (looks 0).check_eq_ok_iff.2 live, indexable]
  simp only [Bool.false_eq_true, if_false]
  rw [StoreM.on_bind, StoreM.on_get]
  cases handles <;> rfl

theorem put_on_of_indexable (live : context.isLive = true) (tenant : String) (message : Json)
    {properties : Properties} (indexable : properties.isEmpty = false) (handles : MessageHandles) :
    (put context tenant message properties).on handles =
      ((if handles.isAtomic then putAtOnce context tenant (Message.encode message) properties
        else putInSteps context.steady tenant (Message.encode message) properties) >>= fun _ =>
          pure (Message.encode message).identifier : StoreM MessageHandles ContentId).on handles :=
  @putUnder_on_of_indexable context.steady live tenant message properties indexable handles

theorem on_putInSteps {looks : Looks} (reads : (looks 1).isLive = true)
    (writes : (looks 2).isLive = true) (indexes : (looks 3).isLive = true)
    (holds : (MessageHandles.separate blocks index).Holds catalog) (tenant : String)
    (message : Json) {properties : Properties} (indexable : properties.isEmpty = false) :
    ∃ after, (putInSteps looks tenant (Message.encode message) properties).on
        (.separate blocks index) = (.ok (), after) ∧
      after.Holds (catalog.insert [tenant, (Message.encode message).identifier.toText]
        (.of message properties)) := by
  have admitsRead : blocks.Admits (looks 1) := ⟨holds.blocksOpen, reads⟩
  have admitsWrite : blocks.Admits (looks 2) := ⟨holds.blocksOpen, writes⟩
  have indexAdmits : index.Admits (looks 3) := ⟨holds.indexOpen, indexes⟩
  obtain ⟨batch, planned⟩ : ∃ batch, writeChanges tenant (Message.encode message) = .ok batch :=
    ⟨_, writeChanges_encode tenant message⟩
  rcases ItemIndex.on_put indexAdmits holds.indexed indexable tenant
    (Message.encode message).identifier.toText with ⟨contents, happens, indexed⟩
  refine ⟨.separate { blocks with contents := blocks.contents.applyAll batch }
    { index with contents }, ?_, holds.blocksOpen, holds.indexOpen, ?_, holds.kept.put tenant
    message properties planned,
    holds.addressed.insert tenant message properties⟩
  · rw [putInSteps, StoreM.on_bind, on_onBlocks]
    simp only [MessageHandles.blocks, BlockPartition.has, Database.on_read admitsRead,
      MessageHandles.withBlocks]
    rw [StoreM.on_bind, writeBlock, planned, StoreM.on_bind, StoreM.on_ofExcept]
    simp only [on_onBlocks, MessageHandles.blocks, Database.on_write admitsWrite,
      MessageHandles.withBlocks]
    rw [StoreM.on_bind, StoreM.on_attempt, on_onIndex]
    simp only [MessageHandles.index, happens]
    rfl
  · rw [MessageCatalog.items, OrderedMap.mapValues_insert]
    exact indexed

/-- A delete unbinds the identifier, in two databases if its second step is not stopped either. -/
theorem on_deleteUnder {looks : Looks} (begins : (looks 0).isLive = true)
    (goesOn : handles.isAtomic = false → (looks 1).isLive = true) (holds : handles.Holds catalog)
    (tenant : String) {identifier : String} {parsed : ContentId}
    (parses : ContentId.parse identifier = .ok parsed) :
    ∃ after, (deleteUnder looks tenant identifier).on handles = (.ok (), after) ∧
      after.Holds (catalog.erase [tenant, parsed.toText]) := by
  have addressed := holds.addressed.erase [tenant, parsed.toText]
  have kept := holds.kept.delete tenant parsed
  rw [deleteUnder, parses, StoreM.on_bind, StoreM.on_ofExcept]
  cases handles with
  | shared database =>
      have indexAdmits : database.Admits (looks 0) := ⟨holds.indexOpen, begins⟩
      rcases ItemIndex.on_deleteWith indexAdmits holds.indexed tenant parsed.toText
        (avoids_deleteChanges tenant parsed) with ⟨contents, happens, updates⟩
      refine ⟨.shared { database with contents }, ?_, MessageHandles.Holds.shared_iff.2
        ⟨holds.indexOpen, ?_, kept.of_frame updates.frame, addressed⟩⟩
      · simp [StoreM.on_bind, MessageHandles.isAtomic, on_onIndex, MessageHandles.index, happens,
          MessageHandles.withIndex, Except.map]
      · rw [MessageCatalog.items, OrderedMap.mapValues_erase]
        exact updates.represents
  | separate blocks index =>
      have blocksAdmit : blocks.Admits (looks 1) := ⟨holds.blocksOpen, goesOn rfl⟩
      have indexAdmits : index.Admits (looks 0) := ⟨holds.indexOpen, begins⟩
      rcases ItemIndex.on_delete indexAdmits holds.indexed tenant parsed.toText
        with ⟨contents, happens, indexed⟩
      refine ⟨.separate
        { blocks with contents := blocks.contents.applyAll (deleteChanges tenant parsed) }
        { index with contents }, ?_, holds.blocksOpen, holds.indexOpen, ?_, kept, addressed⟩
      · simp [StoreM.on_bind, MessageHandles.isAtomic, deleteInSteps, removeBlock, on_onIndex,
          on_onBlocks, MessageHandles.index, MessageHandles.blocks, happens,
          MessageHandles.withIndex, MessageHandles.withBlocks, Database.on_write blocksAdmit]
      · rw [MessageCatalog.items, OrderedMap.mapValues_erase]
        exact indexed

section Admitted

variable (live : context.isLive = true)
include live

theorem on_putAtOnce (holds : (MessageHandles.shared database).Holds catalog) (tenant : String)
    (message : Json) {properties : Properties} (indexable : properties.isEmpty = false) :
    ∃ after, (putAtOnce context tenant (Message.encode message) properties).on (.shared database) =
        (.ok (), after) ∧
      after.Holds (catalog.insert [tenant, (Message.encode message).identifier.toText]
        (.of message properties)) := by
  rcases MessageHandles.Holds.shared_iff.1 holds with ⟨isOpen, indexed, kept, addressed⟩
  obtain ⟨batch, planned⟩ : ∃ batch, writeChanges tenant (Message.encode message) = .ok batch :=
    ⟨_, writeChanges_encode tenant message⟩
  rcases ItemIndex.on_putWith ⟨isOpen, live⟩ indexed indexable tenant
    (Message.encode message).identifier.toText (avoids_writeChanges planned)
    with ⟨contents, happens, updates⟩
  refine ⟨.shared { database with contents }, ?_, MessageHandles.Holds.shared_iff.2 ⟨isOpen, ?_,
    (kept.put tenant message properties planned).of_frame updates.frame,
    addressed.insert tenant message properties⟩⟩
  · rw [putAtOnce, planned, StoreM.on_bind, StoreM.on_ofExcept]
    simp only [on_onIndex, MessageHandles.index, happens]
    rfl
  · rw [MessageCatalog.items, OrderedMap.mapValues_insert]
    exact updates.represents

/-- A put binds the message under its identifier. -/
theorem on_put (holds : handles.Holds catalog) (tenant : String) (message : Json)
    {properties : Properties} (indexable : properties.isEmpty = false) :
    ∃ after, (put context tenant message properties).on handles =
        (.ok (Message.encode message).identifier, after) ∧
      after.Holds (catalog.insert [tenant, (Message.encode message).identifier.toText]
        (.of message properties)) := by
  rw [put_on_of_indexable live tenant message indexable]
  cases handles with
  | shared database =>
      rcases on_putAtOnce live holds tenant message indexable with ⟨after, happens, afterHolds⟩
      refine ⟨after, ?_, afterHolds⟩
      simp [MessageHandles.isAtomic, happens, Except.map]
  | separate blocks index =>
      rcases @on_putInSteps catalog blocks index context.steady live live live holds tenant message
        properties indexable with ⟨after, happens, afterHolds⟩
      refine ⟨after, ?_, afterHolds⟩
      simp [MessageHandles.isAtomic, happens, Except.map]

/-- A delete unbinds the identifier. -/
theorem on_delete (holds : handles.Holds catalog) (tenant : String) {identifier : String}
    {parsed : ContentId} (parses : ContentId.parse identifier = .ok parsed) :
    ∃ after, (delete context tenant identifier).on handles = (.ok (), after) ∧
      after.Holds (catalog.erase [tenant, parsed.toText]) :=
  @on_deleteUnder handles catalog context.steady live (fun _ => live) holds tenant identifier
    parsed parses

/-- A clear leaves no message. -/
theorem on_clear (holds : handles.Holds catalog) :
    ∃ after, (clear context).on handles = (.ok (), after) ∧ after.Holds .empty := by
  rw [clear, StoreM.on_bind, StoreM.on_get]
  cases handles with
  | shared database =>
      have admits : database.Admits context := ⟨holds.indexOpen, live⟩
      have frame (key : Bytes) (outside : messageIndex.root.range.contains key = false) :
          (database.contents.applyAll (clearChanges ++ [messageIndex.clearChange])).find? key =
            (database.contents.applyAll clearChanges).find? key := by
        rw [Contents.applyAll_append]
        apply Contents.find?_applyAll_of_untouched
        simp [ItemIndex.clearChange, Change.touches, outside]
      let batch := clearChanges ++ [messageIndex.clearChange]
      refine ⟨.shared { database with contents := database.contents.applyAll batch }, ?_,
        MessageHandles.Holds.shared_iff.2 ⟨holds.indexOpen, ?_,
          (KeepsBlocks.clear database.contents).of_frame frame, .empty⟩⟩
      · simp [MessageHandles.isAtomic, on_onBlocks, MessageHandles.blocks, Database.on_write admits,
          MessageHandles.withBlocks, batch]
      · rw [Contents.applyAll_append]
        exact .clear messageIndex _
  | separate blocks index =>
      have blocksAdmit : blocks.Admits context := ⟨holds.blocksOpen, live⟩
      have indexAdmits : index.Admits context := ⟨holds.indexOpen, live⟩
      rcases ItemIndex.on_clear messageIndex indexAdmits with ⟨contents, happens, updates⟩
      refine ⟨.separate { blocks with contents := blocks.contents.applyAll clearChanges }
        { index with contents }, ?_, holds.blocksOpen, holds.indexOpen, updates.represents,
        .clear blocks.contents, .empty⟩
      simp [StoreM.on_bind, MessageHandles.isAtomic, on_onIndex, on_onBlocks, MessageHandles.index,
        MessageHandles.blocks, happens, MessageHandles.withIndex, MessageHandles.withBlocks,
        Database.on_write blocksAdmit]

theorem on_load (holds : handles.Holds catalog) (tenant : String) (identifier : ContentId) :
    (load context tenant identifier).on handles =
      (catalog.load? tenant identifier.toText, handles) := by
  have admits : handles.blocks.Admits context := ⟨holds.blocksOpen, live⟩
  rw [load, on_onBlocks, Database.on_read admits, loadFrom_eq holds.kept]
  cases handles <;> rfl

/-- A look-up finds the message that the catalog binds. -/
theorem on_find? (holds : handles.Holds catalog) (tenant : String) {identifier : String}
    {parsed : ContentId} (parses : ContentId.parse identifier = .ok parsed) :
    (find? context tenant identifier).on handles =
      (catalog.load? tenant parsed.toText, handles) := by
  rw [find?, parses, StoreM.on_bind, StoreM.on_ofExcept]
  exact on_load live holds tenant parsed

end Admitted

theorem putUnder_on_of_stopped (handles : MessageHandles) {looks : Looks}
    (stopped : (looks 0).isLive = false) (tenant : String) (message : Json)
    (properties : Properties) :
    ∃ problem, (putUnder looks tenant message properties).on handles =
      (.error problem, handles) := by
  cases checked : (looks 0).check with
  | ok _ =>
      rw [(looks 0).check_eq_ok_iff.1 checked] at stopped
      cases stopped
  | error problem =>
      refine ⟨problem, ?_⟩
      rw [putUnder, StoreM.on_bind, StoreM.on_ofExcept, checked]

theorem deleteUnder_on_of_stopped (handles : MessageHandles) {looks : Looks}
    (stopped : (looks 0).isLive = false) (tenant identifier : String) :
    ∃ problem, (deleteUnder looks tenant identifier).on handles = (.error problem, handles) := by
  have refuses (database : Database) : ¬database.Admits (looks 0) :=
    Database.not_admits (.inl stopped)
  cases parses : ContentId.parse identifier with
  | error problem =>
      exact ⟨problem, by rw [deleteUnder, parses, StoreM.on_bind, StoreM.on_ofExcept]⟩
  | ok parsed =>
      cases handles with
      | shared database =>
          rcases ItemIndex.on_deleteWith_of_not_admits messageIndex (refuses database) tenant
            parsed.toText (deleteChanges tenant parsed) with ⟨problem, refused⟩
          refine ⟨problem, ?_⟩
          simp [deleteUnder, parses, StoreM.on_bind, MessageHandles.isAtomic, on_onIndex,
            MessageHandles.index, MessageHandles.withIndex, refused, Except.map]
      | separate blocks index =>
          rcases ItemIndex.on_deleteWith_of_not_admits messageIndex (refuses index) tenant
            parsed.toText [] with ⟨problem, refused⟩
          refine ⟨problem, ?_⟩
          simp [deleteUnder, parses, StoreM.on_bind, MessageHandles.isAtomic, deleteInSteps,
            ItemIndex.delete, on_onIndex, MessageHandles.index, MessageHandles.withIndex, refused]

section Refused

variable (stopped : context.isLive = false) (handles) (tenant : String)
include stopped

theorem put_on_of_stopped (message : Json) (properties : Properties) :
    ∃ problem, (put context tenant message properties).on handles = (.error problem, handles) :=
  @putUnder_on_of_stopped handles context.steady stopped tenant message properties

theorem delete_on_of_stopped (identifier : String) :
    ∃ problem, (delete context tenant identifier).on handles = (.error problem, handles) :=
  @deleteUnder_on_of_stopped handles context.steady stopped tenant identifier

omit tenant in
theorem clear_on_of_stopped :
    ∃ problem, (clear context).on handles = (.error problem, handles) := by
  have refuses : ¬handles.blocks.Admits context := Database.not_admits (.inl stopped)
  cases handles with
  | shared database =>
      rcases Database.on_update_of_not_admits refuses fun _ =>
        .ok ((), clearChanges ++ [messageIndex.clearChange]) with ⟨problem, refused⟩
      refine ⟨problem, ?_⟩
      simp [clear, StoreM.on_bind, MessageHandles.isAtomic, on_onBlocks, Database.write, refused]
  | separate blocks index =>
      rcases Database.on_update_of_not_admits refuses fun _ => .ok ((), clearChanges)
        with ⟨problem, refused⟩
      refine ⟨problem, ?_⟩
      simp [clear, StoreM.on_bind, MessageHandles.isAtomic, on_onBlocks, Database.write, refused]

end Refused

/-- An identifier that cannot be read stops a delete at once. -/
theorem deleteUnder_on_of_unreadable {identifier : String} {problem : StoreError}
    (unreadable : ContentId.parse identifier = .error problem) (looks : Looks) (tenant : String)
    (handles : MessageHandles) :
    (deleteUnder looks tenant identifier).on handles = (.error problem, handles) := by
  rw [deleteUnder, unreadable, StoreM.on_bind, StoreM.on_ofExcept]

theorem delete_on_of_unreadable {identifier : String} {problem : StoreError}
    (unreadable : ContentId.parse identifier = .error problem) (context : Context) (tenant : String)
    (handles : MessageHandles) :
    (delete context tenant identifier).on handles = (.error problem, handles) :=
  deleteUnder_on_of_unreadable unreadable context.steady tenant handles

theorem find?_on_of_unreadable {identifier : String} {problem : StoreError}
    (unreadable : ContentId.parse identifier = .error problem) (context : Context) (tenant : String)
    (handles : MessageHandles) :
    (find? context tenant identifier).on handles = (.error problem, handles) := by
  rw [find?, unreadable, StoreM.on_bind, StoreM.on_ofExcept]

end MessageStore

end TenantStore
