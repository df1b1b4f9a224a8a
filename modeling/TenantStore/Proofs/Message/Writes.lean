import Mathlib.Data.List.Basic
import Mathlib.Tactic.Common
import TenantStore.Proofs.Message.Query

/-!
# Writes of a message store

A caller of a message store puts, deletes and clears messages.  A write that succeeds does to the
catalog what its name says, and a write that fails does nothing.  So after any writes a binding is
an old one or was made by one of the writes, and if every message that was put can be read back,
every bound message can.
-/

namespace TenantStore

/-- A call that changes what a message store holds. -/
inductive MessageWrite where
  | put (context : Context) (tenant : String) (message : Json) (properties : Properties)
  | delete (context : Context) (tenant identifier : String)
  | clear (context : Context)

namespace MessageWrite

/-- The context of a write. -/
def context : MessageWrite → Context
  | .put context _ _ _ => context
  | .delete context _ _ => context
  | .clear context => context

/-- What a write under a live context makes of a catalog. -/
def change (catalog : MessageCatalog) : MessageWrite → MessageCatalog
  | .put _ tenant message properties =>
    if properties.isEmpty then catalog
    else catalog.insert [tenant, (Message.encode message).identifier.toText]
      (.of message properties)
  | .delete _ tenant identifier =>
    match ContentId.parse identifier with
    | .ok parsed => catalog.erase [tenant, parsed.toText]
    | .error _ => catalog
  | .clear _ => .empty

/-- What a write makes of a catalog; under a stopped context it does nothing. -/
def effect (catalog : MessageCatalog) (write : MessageWrite) : MessageCatalog :=
  if write.context.isLive then write.change catalog else catalog

/-- Whether the write puts a message under this key, with these contents and properties. -/
def Binds (write : MessageWrite) (tenant identifier : String) (stored : StoredMessage) : Prop :=
  ∃ context message properties, write = .put context tenant message properties ∧
    context.isLive = true ∧ properties.isEmpty = false ∧
      (Message.encode message).identifier.toText = identifier ∧ stored = .of message properties

/-- Whether a message that is put is canonical and within the budget of its reader. -/
def IsReadable : MessageWrite → Prop
  | .put _ _ message _ => message.IsCanonical ∧ message.readingCost ≤ Cbor.wholeBudget
  | _ => True

end MessageWrite

namespace MessageWrite

variable {catalog : MessageCatalog} {tenant identifier : String} {stored : StoredMessage}

/-- What is bound after a write was bound before, or the write binds it. -/
theorem find?_effect (write : MessageWrite)
    (found : (write.effect catalog).find? [tenant, identifier] = some stored) :
    catalog.find? [tenant, identifier] = some stored ∨ write.Binds tenant identifier stored := by
  rw [effect] at found
  split at found
  · rename_i live
    cases write with
    | put context owner message properties =>
        rw [change] at found
        split at found
        · exact Or.inl found
        · rename_i indexable
          rw [OrderedMap.find?_insert] at found
          split at found
          · rename_i same
            simp only [List.cons.injEq, and_true] at same
            rcases same with ⟨rfl, rfl⟩
            cases found
            exact Or.inr ⟨context, message, properties, rfl, live, by simpa using indexable,
              rfl, rfl⟩
          · exact Or.inl found
    | delete context owner removed =>
        rw [change] at found
        split at found
        · rw [OrderedMap.find?_erase] at found
          split at found
          · cases found
          · exact Or.inl found
        · exact Or.inl found
    | clear context => cases found
  · exact Or.inl found

/-- What is bound after some writes was bound before, or one of them binds it. -/
theorem find?_foldl_effect {writes : List MessageWrite}
    (found : (writes.foldl effect catalog).find? [tenant, identifier] = some stored) :
    catalog.find? [tenant, identifier] = some stored ∨
      ∃ write ∈ writes, write.Binds tenant identifier stored := by
  induction writes generalizing catalog with
  | nil => exact Or.inl found
  | cons write writes ih =>
      rcases ih found with bound | ⟨later, member, binds⟩
      · rcases find?_effect write bound with before | binds
        · exact Or.inl before
        · exact Or.inr ⟨write, List.mem_cons_self, binds⟩
      · exact Or.inr ⟨later, List.mem_cons_of_mem _ member, binds⟩

theorem size_effect_le (catalog : MessageCatalog) (write : MessageWrite) :
    (write.effect catalog).size ≤ catalog.size + 1 := by
  rw [effect]
  split
  · cases write with
    | put context tenant message properties =>
        rw [change]
        split
        · exact Nat.le_succ _
        · exact OrderedMap.size_insert_le _ _ _
    | delete context tenant identifier =>
        rw [change]
        split
        · exact Nat.le_succ_of_le (OrderedMap.size_erase_le _ _)
        · exact Nat.le_succ _
    | clear context => exact Nat.zero_le _
  · exact Nat.le_succ _

theorem size_foldl_effect_le (catalog : MessageCatalog) (writes : List MessageWrite) :
    (writes.foldl effect catalog).size ≤ catalog.size + writes.length := by
  induction writes generalizing catalog with
  | nil => exact Nat.le_refl _
  | cons write writes ih =>
      have first := size_effect_le catalog write
      have rest := ih (write.effect catalog)
      rw [List.foldl_cons, List.length_cons]
      omega

end MessageWrite

/-- Every bound message can be read back. -/
def MessageCatalog.IsReadable (catalog : MessageCatalog) : Prop :=
  ∀ tenant identifier stored, catalog.find? [tenant, identifier] = some stored →
    ∃ message, stored = .of message stored.properties ∧ stored.load = .ok message

theorem MessageCatalog.IsReadable.foldl_effect {catalog : MessageCatalog}
    (readable : catalog.IsReadable) {writes : List MessageWrite}
    (each : ∀ write ∈ writes, write.IsReadable) :
    MessageCatalog.IsReadable (writes.foldl MessageWrite.effect catalog) := by
  intro tenant identifier stored found
  rcases MessageWrite.find?_foldl_effect found with before | ⟨write, member, binds⟩
  · exact readable tenant identifier stored before
  · rcases binds with ⟨context, message, properties, rfl, _, _, _, rfl⟩
    rcases each _ member with ⟨canonical, shallow⟩
    exact ⟨message, rfl, Message.decode_encode canonical shallow⟩

end TenantStore
