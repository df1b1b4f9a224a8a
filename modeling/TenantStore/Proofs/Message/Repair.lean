import Mathlib.Data.List.Basic
import Mathlib.Tactic.Common
import TenantStore.Proofs.Message.Halves

/-!
# The repair of a candidate

A repair looks at its candidate again when its turn comes.  It removes the block of a message that
is not indexed, together with its inline payload, or the index entries of an item without a block,
and else nothing, whatever state it finds.
-/

namespace TenantStore

namespace MessageStore

open MessageHandles

variable (looks : Looks) (context : Context) (tenant : String) (handles : MessageHandles)

/-- How a repair ends: if it is due it leaves the databases repaired and says so, and if not it says
that and changes nothing; if it may fail, it can do that instead, and then changes nothing
either. -/
def Ends (repair : StoreM MessageHandles Bool) (handles : MessageHandles) (due : Prop)
    (repaired : MessageHandles) (mayFail : Prop) : Prop :=
  (due ∧ repair.on handles = (.ok true, repaired)) ∨
    (¬due ∧ repair.on handles = (.ok false, handles)) ∨
      ∃ problem, repair.on handles = (.error problem, handles) ∧ mayFail

/-- Whether a repair may fail: a database refuses it somewhere, or the entries of the item cannot be
read. -/
def MayFail (looks : Looks) (tenant item : String) (handles : MessageHandles) : Prop :=
  (∀ place, handles.blocks.Admits (looks place)) → (∀ place, handles.index.Admits (looks place)) →
    ∃ problem, messageIndex.propertiesIn? handles.index.contents tenant item = .error problem

/-- A block is removed exactly if it is not indexed. -/
theorem ends_removeOrphanUnder (identifier : ContentId) :
    Ends (removeOrphanUnder looks tenant identifier) handles
      (handles.isIndexed tenant identifier.toText = false) (handles.withoutBlock tenant identifier)
      (MayFail looks tenant identifier.toText handles) := by
  rw [Ends, Bool.not_eq_false, removeOrphanUnder, StoreM.on_bind, StoreM.on_get]
  cases handles with
  | shared database =>
      simp only [isAtomic, if_true, on_onBlocks, MessageHandles.blocks, withBlocks]
      by_cases admits : database.Admits (looks 0)
      · rw [Database.on_update admits]
        cases indexed :
          database.contents.contains (messageIndex.reverseKey tenant identifier.toText) with
        | true => exact Or.inr (Or.inl ⟨indexed, rfl⟩)
        | false => exact Or.inl ⟨indexed, rfl⟩
      · rcases Database.on_update_of_not_admits admits fun contents =>
          if contents.contains (messageIndex.reverseKey tenant identifier.toText) then .ok
            (false, [])
          else .ok (true, deleteChanges tenant identifier) with ⟨problem, refused⟩
        rw [refused]
        exact Or.inr (Or.inr ⟨problem, rfl, fun admitted => absurd (admitted _) admits⟩)
  | separate blocks index =>
      simp only [isAtomic, Bool.false_eq_true, if_false, StoreM.on_bind, on_onIndex,
        MessageHandles.index, withIndex]
      by_cases indexAdmits : index.Admits (looks 0)
      · rw [ItemIndex.properties?, Database.on_read indexAdmits]
        cases read : messageIndex.propertiesIn? index.contents tenant identifier.toText with
        | error problem => exact Or.inr (Or.inr ⟨problem, rfl, fun _ _ => ⟨problem, read⟩⟩)
        | ok found =>
            have indexed := ItemIndex.contains_reverseKey_of_propertiesIn? read
            cases found with
            | some properties => exact Or.inr (Or.inl ⟨indexed, rfl⟩)
            | none =>
                simp only [StoreM.on_bind, on_onBlocks, MessageHandles.blocks, withBlocks]
                by_cases admits : blocks.Admits (looks 1)
                · refine Or.inl ⟨indexed, ?_⟩
                  rw [Database.on_write admits]
                  rfl
                · rcases Database.on_update_of_not_admits admits fun _ =>
                    .ok ((), deleteChanges tenant identifier) with ⟨problem, refused⟩
                  rw [Database.write, refused]
                  exact Or.inr (Or.inr ⟨problem, rfl, fun admitted => absurd (admitted _) admits⟩)
      · rcases Database.ready_of_not_admits indexAdmits with ⟨problem, stopped⟩
        rw [ItemIndex.properties?, Database.read, StoreM.on_ofStep, stopped]
        exact Or.inr (Or.inr ⟨problem, rfl, fun _ admitted => absurd (admitted _) indexAdmits⟩)

theorem ends_removeOrphan (identifier : ContentId) :
    Ends (removeOrphan context tenant identifier) handles
      (handles.isIndexed tenant identifier.toText = false) (handles.withoutBlock tenant identifier)
      (MayFail context.steady tenant identifier.toText handles) :=
  ends_removeOrphanUnder context.steady tenant handles identifier

/-- A removal from an index of its own removes an item exactly if it is indexed. -/
theorem ends_index_delete (place : Nat) (item : String) (blocks index : Database) :
    Ends (onIndex (messageIndex.delete (looks place) tenant item)) (separate blocks index)
      ((separate blocks index).isIndexed tenant item = true)
      ((separate blocks index).withoutEntries tenant item)
      (MayFail looks tenant item (separate blocks index)) := by
  rw [Ends, Bool.not_eq_true, on_onIndex]
  by_cases admits : index.Admits (looks place)
  · simp only [ItemIndex.delete, ItemIndex.deleteWith, MessageHandles.index,
      Database.on_update admits]
    rcases messageIndex.deleteBatch?_cases index.contents tenant item with
      ⟨indexed, planned⟩ | ⟨unindexed, planned⟩ | ⟨problem, planned, unreadable⟩
    · refine Or.inl ⟨indexed, ?_⟩
      simp [planned, bind, Except.bind, pure, Except.pure, withoutEntries, MessageHandles.index]
    · refine Or.inr (Or.inl ⟨unindexed, ?_⟩)
      simp [planned, bind, Except.bind, pure, Except.pure, withIndex]
    · refine Or.inr (Or.inr ⟨problem, ?_, fun _ _ => ⟨problem, unreadable⟩⟩)
      simp [planned, bind, Except.bind, withIndex]
  · rcases ItemIndex.on_deleteWith_of_not_admits messageIndex admits tenant item []
      with ⟨problem, refused⟩
    refine Or.inr (Or.inr ⟨problem, ?_, fun _ admitted => absurd (admitted _) admits⟩)
    rw [ItemIndex.delete, MessageHandles.index, refused]
    rfl

/-- Index entries are removed exactly if they are there and their block is not. -/
theorem ends_removeDanglingUnder (item : String) :
    Ends (removeDanglingUnder looks tenant item) handles
      (holdsBlock handles.blocks.contents tenant item = false ∧ handles.isIndexed tenant
        item = true)
      (handles.withoutEntries tenant item) (MayFail looks tenant item handles) := by
  rw [Ends, removeDanglingUnder, StoreM.on_bind, StoreM.on_get]
  cases handles with
  | shared database =>
      simp only [isAtomic, if_true, on_onBlocks, MessageHandles.blocks, withBlocks]
      by_cases admits : database.Admits (looks 0)
      · rw [Database.on_update admits]
        cases held : holdsBlock database.contents tenant item with
        | true => exact Or.inr (Or.inl ⟨by simp, rfl⟩)
        | false =>
            rw [if_neg Bool.false_ne_true]
            rcases messageIndex.deleteBatch?_cases database.contents tenant item with
              ⟨indexed, planned⟩ | ⟨unindexed, planned⟩ | ⟨problem, planned, unreadable⟩
            · rw [planned]
              exact Or.inl ⟨⟨rfl, indexed⟩, rfl⟩
            · rw [planned]
              exact Or.inr
                (Or.inl ⟨by simpa [isIndexed, MessageHandles.index] using unindexed, rfl⟩)
            · rw [planned]
              exact Or.inr (Or.inr ⟨problem, rfl, fun _ _ => ⟨problem, unreadable⟩⟩)
      · rcases Database.on_update_of_not_admits admits fun contents =>
          if holdsBlock contents tenant item then .ok (false, [])
          else (messageIndex.deleteBatch? contents tenant item).map fun removal? =>
            (removal?.isSome, removal?.getD []) with ⟨problem, refused⟩
        rw [refused]
        exact Or.inr (Or.inr ⟨problem, rfl, fun admitted => absurd (admitted _) admits⟩)
  | separate blocks index =>
      have removes := ends_index_delete looks tenant 1 item blocks index
      simp only [isAtomic, Bool.false_eq_true, if_false]
      cases addressed : (blockKey? tenant item).isSome with
      | false =>
          have absent : holdsBlock blocks.contents tenant item = false := by
            rw [holdsBlock, show blockKey? tenant item = none by simpa using addressed]
          simp only [Bool.false_eq_true, if_false, StoreM.on_bind, StoreM.on_pure, absent,
            MessageHandles.blocks, true_and]
          exact removes
      | true =>
          simp only [if_true, StoreM.on_bind, on_onBlocks, MessageHandles.blocks, withBlocks]
          by_cases admits : blocks.Admits (looks 0)
          · rw [Database.on_read admits]
            cases held : holdsBlock blocks.contents tenant item with
            | true => exact Or.inr (Or.inl ⟨by simp, rfl⟩)
            | false =>
                simp only [Bool.false_eq_true, if_false, true_and]
                exact removes
          · rcases Database.ready_of_not_admits admits with ⟨problem, stopped⟩
            rw [Database.read, StoreM.on_ofStep, stopped]
            exact Or.inr (Or.inr ⟨problem, rfl, fun admitted => absurd (admitted _) admits⟩)

theorem ends_removeDangling (item : String) :
    Ends (removeDangling context tenant item) handles
      (holdsBlock handles.blocks.contents tenant item = false ∧ handles.isIndexed tenant
        item = true)
      (handles.withoutEntries tenant item) (MayFail context.steady tenant item handles) :=
  ends_removeDanglingUnder context.steady tenant handles item

namespace Ends

variable {repair : StoreM MessageHandles Bool} {handles repaired after : MessageHandles}
  {due mayFail : Prop}

/-- Whatever a repair tells, it has done what was due or nothing. -/
theorem after_cases (ends : Ends repair handles due repaired mayFail) :
    (repair.on handles).2 = handles ∨ (due ∧ (repair.on handles).2 = repaired) := by
  rcases ends with ⟨isDue, happens⟩ | ⟨_, happens⟩ | ⟨problem, happens, _⟩
  · exact Or.inr ⟨isDue, by rw [happens]⟩
  · exact Or.inl (by rw [happens])
  · exact Or.inl (by rw [happens])

/-- An answer tells whether something was due. -/
theorem of_ok (ends : Ends repair handles due repaired mayFail) {answer : Bool}
    (happens : repair.on handles = (.ok answer, after)) :
    (answer = true ↔ due) ∧ after = if answer then repaired else handles := by
  rcases ends with ⟨isDue, ended⟩ | ⟨notDue, ended⟩ | ⟨problem, ended, _⟩
  · rw [ended] at happens
    cases happens
    exact ⟨iff_of_true rfl isDue, rfl⟩
  · rw [ended] at happens
    cases happens
    exact ⟨iff_of_false Bool.false_ne_true notDue, rfl⟩
  · rw [ended] at happens
    cases happens

theorem exists_ok (ends : Ends repair handles due repaired mayFail) (safe : ¬mayFail) :
    ∃ answer after, repair.on handles = (.ok answer, after) := by
  rcases ends with ⟨_, ended⟩ | ⟨_, ended⟩ | ⟨_, _, fails⟩
  · exact ⟨true, repaired, ended⟩
  · exact ⟨false, handles, ended⟩
  · exact absurd fails safe

end Ends

/-- A repair of databases that hold only what belongs to messages cannot fail. -/
theorem not_mayFail {handles : MessageHandles} (only : IndexesOnlyMessages handles.index.contents)
    (blocksAdmit : handles.blocks.Admits context) (indexAdmits : handles.index.Admits context)
    (item : String) : ¬MayFail context.steady tenant item handles := by
  intro mayFail
  rcases mayFail (fun _ => blocksAdmit) (fun _ => indexAdmits) with ⟨problem, unreadable⟩
  rcases only with ⟨items, represents, _⟩
  rw [represents.propertiesIn?] at unreadable
  cases unreadable

end MessageStore

end TenantStore
