import Mathlib.Data.List.Basic
import Mathlib.Tactic.Common
import TenantStore.Proofs.Message.Calls

/-!
# Runs of a message store in ordered databases

The operations of a message store in one or in two ordered databases keep to the catalog, so a
sequence of writes leads to the catalog that their effects give.
-/

namespace TenantStore

namespace MessageStore

/-- The message store in ordered databases. -/
def backend : MessageBackend MessageHandles := ⟨put, delete, clear, find?, query⟩

theorem keeps : backend.Keeps MessageHandles.Holds fun _ => True where
  put_of_isEmpty := put_on_of_isEmpty
  put live _ _ held tenant message _ indexable _ := on_put live held tenant message indexable
  delete_of_unreadable := delete_on_of_unreadable
  delete live _ _ held tenant _ _ parses := on_delete live held tenant parses
  clear live _ _ held := on_clear live held
  find?_of_unreadable := find?_on_of_unreadable
  find? live _ _ held tenant _ _ parses := on_find? live held tenant parses

end MessageStore

/-- The write as an operation on the databases of a message store. -/
def MessageWrite.operation : MessageWrite → StoreM MessageHandles Unit
  | .put context tenant message properties => do
    let _ ← MessageStore.put context tenant message properties
  | .delete context tenant identifier => MessageStore.delete context tenant identifier
  | .clear context => MessageStore.clear context

namespace MessageHandles

/-- The databases after a write. -/
def perform (handles : MessageHandles) (write : MessageWrite) : MessageHandles :=
  (write.operation.on handles).2

/-- The databases after a sequence of writes. -/
def performAll (handles : MessageHandles) (writes : List MessageWrite) : MessageHandles :=
  writes.foldl perform handles

variable {handles : MessageHandles} {catalog : MessageCatalog}

theorem perform_put (handles : MessageHandles) (context : Context) (tenant : String)
    (message : Json) (properties : Properties) :
    handles.perform (.put context tenant message properties) =
      ((MessageStore.put context tenant message properties).on handles).2 := by
  simp [perform, MessageWrite.operation]

/-- A write under a stopped context leaves the databases as they are. -/
theorem perform_of_stopped {write : MessageWrite} (stopped : write.context.isLive = false) :
    handles.perform write = handles := by
  cases write with
  | put context tenant message properties =>
      rcases MessageStore.put_on_of_stopped handles stopped tenant message properties
        with ⟨problem, refused⟩
      exact (perform_put _ _ _ _ _).trans (congrArg Prod.snd refused)
  | delete context tenant identifier =>
      rcases MessageStore.delete_on_of_stopped handles stopped tenant identifier
        with ⟨problem, refused⟩
      exact congrArg Prod.snd refused
  | clear context =>
      rcases MessageStore.clear_on_of_stopped handles stopped with ⟨problem, refused⟩
      exact congrArg Prod.snd refused

theorem perform_eq_snd (handles : MessageHandles) (write : MessageWrite) :
    handles.perform write = (MessageStore.backend.perform handles (.write write)).2 := by
  cases write with
  | put context tenant message properties =>
      exact perform_put handles context tenant message properties
  | delete context tenant identifier => rfl
  | clear context => rfl

/-- A write leads from a held catalog to the one that its effect gives. -/
theorem Holds.perform (holds : handles.Holds catalog) (write : MessageWrite) :
    (handles.perform write).Holds (write.effect catalog) := by
  cases live : write.context.isLive with
  | false =>
      rw [perform_of_stopped live, MessageWrite.effect, live]
      exact holds
  | true =>
      rcases MessageStore.keeps.perform_write holds live write.puts_true
        with ⟨after, happens, afterHolds⟩
      rw [perform_eq_snd, happens, MessageWrite.effect, if_pos live]
      exact afterHolds

/-- A sequence of writes leads from a held catalog to the one that their effects give. -/
theorem Holds.performAll (holds : handles.Holds catalog) (writes : List MessageWrite) :
    (handles.performAll writes).Holds (writes.foldl MessageWrite.effect catalog) := by
  induction writes generalizing handles catalog with
  | nil => exact holds
  | cons write writes ih => exact ih (holds.perform write)

end MessageHandles

end TenantStore
