import Mathlib.Data.List.Basic
import Mathlib.Tactic.Common
import TenantStore.Proofs.Index.Catalog

/-!
# What removing an item touches

An item that is removed from an index loses its reverse entry and the forward entries that this one
tells of.  Whatever the contents are, no other key is touched.
-/

namespace TenantStore

namespace ItemIndex

/-- Whether a key is that of an entry of the item. -/
def IsEntry (index : ItemIndex) (tenant item : String) (key : Bytes) : Prop :=
  key = index.reverseKey tenant item ∨
    ∃ property value, key = index.forwardKey tenant property value item

/-- The changes that remove an item; there are none if it is not indexed. -/
def removal (index : ItemIndex) (contents : Contents) (tenant item : String) : Batch :=
  ((index.deleteBatch? contents tenant item).toOption.bind id).getD []

variable {index : ItemIndex} {contents : Contents} {tenant item : String} {key : Bytes}

theorem IsEntry.contains (isEntry : index.IsEntry tenant item key) :
    index.root.range.contains key = true := by
  rcases isEntry with rfl | ⟨property, value, rfl⟩
  · exact index.contains_reverseKey tenant item
  · exact index.contains_forwardKey tenant property value item

/-- An entry is that of one item only. -/
theorem IsEntry.unique {otherTenant otherItem : String} (isEntry : index.IsEntry tenant item key)
    (isOther : index.IsEntry otherTenant otherItem key) :
    tenant = otherTenant ∧ item = otherItem := by
  rcases isEntry with rfl | ⟨property, value, rfl⟩
  · rcases isOther with same | ⟨property, value, same⟩
    · exact reverseKey_inj.1 same
    · exact absurd same (index.reverseKey_ne_forwardKey _ _ _ _ _ _)
  · rcases isOther with same | ⟨otherProperty, otherValue, same⟩
    · exact absurd same (index.forwardKey_ne_reverseKey _ _ _ _ _ _)
    · rw [forwardKey_inj] at same
      exact ⟨same.1, same.2.2.2⟩

/-- An item that is to be removed is indexed, or there is nothing to do, or its entries cannot be
read. -/
theorem deleteBatch?_cases (index : ItemIndex) (contents : Contents) (tenant item : String) :
    (contents.contains (index.reverseKey tenant item) = true ∧
        index.deleteBatch? contents tenant item = .ok (some (index.removal contents tenant item))) ∨
      (contents.contains (index.reverseKey tenant item) = false ∧
        index.deleteBatch? contents tenant item = .ok none) ∨
      ∃ problem, index.deleteBatch? contents tenant item = .error problem ∧
        index.propertiesIn? contents tenant item = .error problem := by
  rw [removal, deleteBatch?, propertiesIn?, OrderedMap.contains]
  cases contents.find? (index.reverseKey tenant item) with
  | none => exact Or.inr (Or.inl ⟨rfl, rfl⟩)
  | some record =>
      simp only
      cases Properties.ofRecord record with
      | error problem => exact Or.inr (Or.inr ⟨problem, rfl, rfl⟩)
      | ok properties => exact Or.inl ⟨rfl, rfl⟩

/-- Properties that can be read tell whether there is a reverse entry. -/
theorem contains_reverseKey_of_propertiesIn? {properties? : Option Properties}
    (read : index.propertiesIn? contents tenant item = .ok properties?) :
    contents.contains (index.reverseKey tenant item) = properties?.isSome := by
  rw [propertiesIn?] at read
  rw [OrderedMap.contains]
  cases found : contents.find? (index.reverseKey tenant item) with
  | none =>
      rw [found] at read
      cases read
      rfl
  | some record =>
      rw [found] at read
      simp only at read
      cases held : Properties.ofRecord record with
      | error problem =>
          rw [held] at read
          cases read
      | ok properties =>
          rw [held] at read
          cases read
          rfl

/-- What removes an item touches its entries only. -/
theorem isEntry_of_mem_removal {change : Change}
    (member : change ∈ index.removal contents tenant item) (touches : change.touches key) :
    index.IsEntry tenant item key := by
  rw [removal, deleteBatch?] at member
  cases found : contents.find? (index.reverseKey tenant item) with
  | none =>
      rw [found] at member
      cases member
  | some record =>
      rw [found] at member
      cases read : Properties.ofRecord record with
      | error problem =>
          simp only [read] at member
          cases member
      | ok properties =>
          simp only [read] at member
          rcases List.mem_append.1 member with isForward | isReverse
          · rcases List.mem_map.1 isForward with ⟨entry, _, rfl⟩
            exact Or.inr ⟨entry.1, entry.2, touches.symm⟩
          · cases List.mem_singleton.1 isReverse
            exact Or.inl touches.symm

theorem within_removal : Batch.Within (index.removal contents tenant item) index.root.range :=
  fun _ member _ touches => (isEntry_of_mem_removal member touches).contains

namespace Represents

variable {catalog : ItemCatalog}

theorem removal (represents : index.Represents contents catalog) (tenant item : String) :
    index.Represents (contents.applyAll (index.removal contents tenant item))
      (catalog.erase [tenant, item]) := by
  have planned : index.deleteBatch? contents tenant item = _ := represents.deleteBatch?_eq
  have batch : index.removal contents tenant item = _ :=
    congrArg (fun planned => (planned.toOption.bind id).getD []) planned
  rw [batch]
  exact represents.delete planned

/-- An item has an entry exactly if it is in the catalog. -/
theorem contains_reverseKey (represents : index.Represents contents catalog)
    (tenant item : String) :
    contents.contains (index.reverseKey tenant item) = (catalog.find? [tenant, item]).isSome := by
  rw [OrderedMap.contains, represents.reverse, Option.isSome_map]

/-- An item that was removed has no entry left. -/
theorem not_contains_of_isEntry (represents : index.Represents contents catalog)
    (isEntry : index.IsEntry tenant item key) :
    (contents.applyAll (index.removal contents tenant item)).contains key = false := by
  have removed := represents.removal tenant item
  have absent : (catalog.erase [tenant, item]).find? [tenant, item] = none := by
    rw [OrderedMap.find?_erase, if_pos rfl]
  rcases isEntry with rfl | ⟨property, value, rfl⟩
  · rw [removed.contains_reverseKey, absent]
    rfl
  · rw [OrderedMap.contains, removed.forward, ItemCatalog.forwardRecord?, absent]
    rfl

end Represents

end ItemIndex

end TenantStore
