import Mathlib.Data.List.Basic
import Mathlib.Tactic.Common
import TenantStore.Proofs.Database.Batches
import TenantStore.Proofs.Index.Keys
import TenantStore.Proofs.Index.Records

/-!
# Indexes as catalogs

What an index holds is a catalog: the properties of every item, by tenant and identifier.  The
contents of a database represent a catalog if the reverse entries and the forward entries are those
of its items and no other key lies in the range of the index.

Each change of an index is shown here at the level of contents: from contents that represent a
catalog its batch exists and leads to contents that represent the changed catalog.  The batch
touches only keys of the index, and what other batches do outside its range does not matter.
-/

namespace TenantStore

/-- The items of an index with their properties, by tenant and identifier. -/
abbrev ItemCatalog := OrderedMap (List String) Properties

namespace ItemCatalog

/-- The record of the forward entry of an item under a property and a value. -/
def forwardRecord? (catalog : ItemCatalog) (tenant property : String) (value : IndexValue)
    (item : String) : Option Bytes :=
  (catalog.find? [tenant, item]).bind fun properties =>
    if properties.find? property = some value then some (IndexedItem.toRecord ⟨item, properties⟩)
    else none

end ItemCatalog

namespace ItemIndex

/-- The contents hold exactly the entries of a catalog's items. -/
structure Represents (index : ItemIndex) (contents : Contents) (catalog : ItemCatalog) : Prop where
  reverse (tenant item : String) :
    contents.find? (index.reverseKey tenant item) =
      (catalog.find? [tenant, item]).map Properties.toRecord
  forward (tenant property : String) (value : IndexValue) (item : String) :
    contents.find? (index.forwardKey tenant property value item) =
      catalog.forwardRecord? tenant property value item
  closed (key : Bytes) (contained : index.root.range.contains key = true)
    (bound : (contents.find? key).isSome = true) :
    (∃ tenant item, key = index.reverseKey tenant item) ∨
      ∃ tenant property value item, key = index.forwardKey tenant property value item

/-- The keys of the forward entries of an item. -/
def forwardKeys (index : ItemIndex) (tenant item : String) (properties : Properties) : List Bytes :=
  properties.toList.map fun entry => index.forwardKey tenant entry.1 entry.2 item

theorem forwardDeletes_eq (index : ItemIndex) (tenant item : String) (properties : Properties) :
    index.forwardDeletes tenant item properties =
      (index.forwardKeys tenant item properties).map .delete := by
  simp [forwardDeletes, forwardKeys]

theorem forwardPuts_eq (index : ItemIndex) (tenant : String) (item : IndexedItem) :
    index.forwardPuts tenant item =
      (index.forwardKeys tenant item.identifier item.properties).map fun key =>
        .put key item.toRecord := by
  simp [forwardPuts, forwardKeys]

variable {index : ItemIndex} {contents : Contents} {catalog : ItemCatalog} {tenant item : String}
  {properties : Properties}

theorem forwardKey_mem_forwardKeys {otherTenant property otherItem : String} {value : IndexValue} :
    index.forwardKey otherTenant property value otherItem ∈ index.forwardKeys tenant item
      properties ↔ [otherTenant, otherItem] = [tenant, item] ∧
      properties.find? property = some value := by
  simp only [forwardKeys, List.mem_map, forwardKey_inj, List.cons.injEq, and_true,
    OrderedMap.find?_eq_some_iff]
  constructor
  · rintro ⟨⟨name, held⟩, member, rfl, rfl, rfl, rfl⟩
    exact ⟨⟨rfl, rfl⟩, member⟩
  · rintro ⟨⟨rfl, rfl⟩, member⟩
    exact ⟨(property, value), member, rfl, rfl, rfl, rfl⟩

theorem reverseKey_not_mem_forwardKeys {otherTenant otherItem : String} :
    index.reverseKey otherTenant otherItem ∉ index.forwardKeys tenant item properties := by
  simp [forwardKeys]

theorem exists_of_mem_forwardKeys {key : Bytes}
    (member : key ∈ index.forwardKeys tenant item properties) :
    ∃ property value, key = index.forwardKey tenant property value item := by
  rcases List.mem_map.1 member with ⟨entry, _, rfl⟩
  exact ⟨entry.1, entry.2, rfl⟩

theorem within_forwardDeletes :
    Batch.Within (index.forwardDeletes tenant item properties) index.root.range := by
  rw [forwardDeletes_eq]
  intro change member key touches
  rcases List.mem_map.1 member with ⟨removed, isForward, rfl⟩
  cases touches
  rcases exists_of_mem_forwardKeys isForward with ⟨property, value, rfl⟩
  exact index.contains_forwardKey tenant property value item

theorem within_forwardPuts :
    Batch.Within (index.forwardPuts tenant ⟨item, properties⟩) index.root.range := by
  rw [forwardPuts_eq]
  intro change member key touches
  rcases List.mem_map.1 member with ⟨written, isForward, rfl⟩
  cases touches
  rcases exists_of_mem_forwardKeys isForward with ⟨property, value, rfl⟩
  exact index.contains_forwardKey tenant property value item

namespace Represents

/-- The empty contents hold no item. -/
theorem empty (index : ItemIndex) : index.Represents .empty .empty where
  reverse _ _ := rfl
  forward _ _ _ _ := rfl
  closed _ _ bound := by cases bound

/-- Changes outside the range of an index leave what it holds. -/
theorem applyAll_of_avoids {batch : Batch} (represents : index.Represents contents catalog)
    (avoids : batch.Avoids index.root.range) :
    index.Represents (contents.applyAll batch) catalog where
  reverse tenant item := by
    rw [Contents.find?_applyAll_of_avoids avoids (index.contains_reverseKey tenant item),
      represents.reverse]
  forward tenant property value item := by
    rw [Contents.find?_applyAll_of_avoids avoids
      (index.contains_forwardKey tenant property value item), represents.forward]
  closed key contained bound := by
    rw [Contents.find?_applyAll_of_avoids avoids contained] at bound
    exact represents.closed key contained bound

theorem propertiesIn? (represents : index.Represents contents catalog) (tenant item : String) :
    index.propertiesIn? contents tenant item = .ok (catalog.find? [tenant, item]) := by
  rw [ItemIndex.propertiesIn?, represents.reverse]
  cases catalog.find? [tenant, item] with
  | none => rfl
  | some properties => simp [Except.map]

/-- The forward keys that removing or replacing an item takes away. -/
def heldKeys (index : ItemIndex) (catalog : ItemCatalog) (tenant item : String) : List Bytes :=
  match catalog.find? [tenant, item] with
  | none => []
  | some properties => index.forwardKeys tenant item properties

theorem forwardKey_mem_heldKeys {otherTenant property otherItem : String} {value : IndexValue} :
    index.forwardKey otherTenant property value otherItem ∈ heldKeys index catalog tenant item ↔
      [otherTenant, otherItem] = [tenant, item] ∧
        ∃ properties, catalog.find? [tenant, item] = some properties ∧
          properties.find? property = some value := by
  unfold heldKeys
  split
  · rename_i absent
    simp [absent]
  · rename_i properties found
    simp [found, forwardKey_mem_forwardKeys]

theorem reverseKey_not_mem_heldKeys {otherTenant otherItem : String} :
    index.reverseKey otherTenant otherItem ∉ heldKeys index catalog tenant item := by
  unfold heldKeys
  split
  · simp
  · exact reverseKey_not_mem_forwardKeys

theorem within_heldDeletes :
    Batch.Within ((heldKeys index catalog tenant item).map .delete) index.root.range := by
  unfold heldKeys
  split
  · intro change member
    cases member
  · rw [← forwardDeletes_eq]
    exact within_forwardDeletes

/-- What the batch of a put does, apart from how it is computed. -/
theorem putBatch_eq (represents : index.Represents contents catalog)
    (indexable : properties.isEmpty = false) :
    index.putBatch contents tenant item properties =
      .ok ((heldKeys index catalog tenant item).map .delete ++
        index.forwardPuts tenant ⟨item, properties⟩ ++
          [.put (index.reverseKey tenant item) properties.toRecord]) := by
  have found := represents.reverse tenant item
  cases indexed : catalog.find? [tenant, item] with
  | none =>
      rw [indexed] at found
      simp [putBatch, heldKeys, indexed, found, indexable, pure, bind, Except.pure, Except.bind]
  | some held =>
      rw [indexed] at found
      simp [putBatch, heldKeys, indexed, found, indexable, pure, bind, Except.pure, Except.bind,
        forwardDeletes_eq]

theorem within_putBatch {batch : Batch} (represents : index.Represents contents catalog)
    (indexable : properties.isEmpty = false)
    (planned : index.putBatch contents tenant item properties = .ok batch) :
    batch.Within index.root.range := by
  rw [represents.putBatch_eq indexable] at planned
  cases planned
  refine Batch.Within.append (within_heldDeletes.append within_forwardPuts) ?_
  intro change member key touches
  cases List.mem_singleton.1 member
  cases touches
  exact index.contains_reverseKey tenant item

/-- What the contents hold under a key after a put. -/
theorem find?_applyAll_putBatch {batch : Batch} (represents : index.Represents contents catalog)
    (indexable : properties.isEmpty = false)
    (planned : index.putBatch contents tenant item properties = .ok batch) (key : Bytes) :
    (contents.applyAll batch).find? key =
      if key = index.reverseKey tenant item then some properties.toRecord
      else if key ∈ index.forwardKeys tenant item properties then
        some (IndexedItem.toRecord ⟨item, properties⟩)
      else if key ∈ heldKeys index catalog tenant item then none
      else contents.find? key := by
  rw [represents.putBatch_eq indexable] at planned
  cases planned
  rw [Contents.applyAll_append, Contents.applyAll_append, Contents.applyAll_cons,
    Contents.applyAll_nil, Contents.apply, OrderedMap.find?_insert, forwardPuts_eq,
    Contents.find?_applyAll_puts, Contents.find?_applyAll_deletes]

/-- A put leads to the catalog with the item bound to its new properties. -/
theorem put {batch : Batch} (represents : index.Represents contents catalog)
    (indexable : properties.isEmpty = false)
    (planned : index.putBatch contents tenant item properties = .ok batch) :
    index.Represents (contents.applyAll batch) (catalog.insert [tenant, item] properties) where
  reverse otherTenant otherItem := by
    rw [represents.find?_applyAll_putBatch indexable planned, OrderedMap.find?_insert,
      if_neg reverseKey_not_mem_forwardKeys, if_neg reverseKey_not_mem_heldKeys, represents.reverse]
    by_cases same : otherTenant = tenant ∧ otherItem = item
    · simp [same]
    · simp [same]
  forward otherTenant property value otherItem := by
    rw [represents.find?_applyAll_putBatch indexable planned, ItemCatalog.forwardRecord?,
      OrderedMap.find?_insert, if_neg (index.forwardKey_ne_reverseKey _ _ _ _ _ _),
      represents.forward, ItemCatalog.forwardRecord?]
    simp only [forwardKey_mem_forwardKeys, forwardKey_mem_heldKeys]
    by_cases same : [otherTenant, otherItem] = [tenant, item]
    · simp only [List.cons.injEq, and_true] at same
      obtain ⟨rfl, rfl⟩ := same
      simp only [true_and, if_true, Option.bind_some]
      split
      · rfl
      · split
        · rfl
        · rename_i notHeld
          cases found : catalog.find? [otherTenant, otherItem] with
          | none => rfl
          | some held =>
              have : held.find? property ≠ some value := fun bound => notHeld ⟨held, found, bound⟩
              simp [this]
    · simp only [same, false_and, if_false]
  closed key contained bound := by
    rw [represents.find?_applyAll_putBatch indexable planned] at bound
    by_cases isReverse : key = index.reverseKey tenant item
    · exact Or.inl ⟨tenant, item, isReverse⟩
    · by_cases isForward : key ∈ index.forwardKeys tenant item properties
      · rcases exists_of_mem_forwardKeys isForward with ⟨property, value, rfl⟩
        exact Or.inr ⟨tenant, property, value, item, rfl⟩
      · rw [if_neg isReverse, if_neg isForward] at bound
        split at bound
        · cases bound
        · exact represents.closed key contained bound

/-- The batch that removes an item, if it is indexed. -/
theorem deleteBatch?_eq (represents : index.Represents contents catalog) :
    index.deleteBatch? contents tenant item =
      .ok ((catalog.find? [tenant, item]).map fun _ =>
        (heldKeys index catalog tenant item).map .delete ++
          [.delete (index.reverseKey tenant item)]) := by
  have found := represents.reverse tenant item
  cases indexed : catalog.find? [tenant, item] with
  | none =>
      rw [indexed] at found
      simp [deleteBatch?, found, pure, Except.pure]
  | some held =>
      rw [indexed] at found
      simp [deleteBatch?, heldKeys, indexed, found, pure, bind, Except.pure, Except.bind,
        forwardDeletes_eq]

theorem within_deleteBatch? {removal? : Option Batch}
    (represents : index.Represents contents catalog)
    (planned : index.deleteBatch? contents tenant item = .ok removal?) :
    Batch.Within (removal?.getD []) index.root.range := by
  rw [represents.deleteBatch?_eq] at planned
  cases planned
  cases catalog.find? [tenant, item] with
  | none =>
      intro change member
      cases member
  | some held =>
      refine within_heldDeletes.append ?_
      intro change member key touches
      cases List.mem_singleton.1 member
      cases touches
      exact index.contains_reverseKey tenant item

/-- What the contents hold under a key after a removal. -/
theorem find?_applyAll_deleteBatch? {removal? : Option Batch}
    (represents : index.Represents contents catalog)
    (planned : index.deleteBatch? contents tenant item = .ok removal?) (key : Bytes) :
    (contents.applyAll (removal?.getD [])).find? key =
      if key = index.reverseKey tenant item then none
      else if key ∈ heldKeys index catalog tenant item then none
      else contents.find? key := by
  rw [represents.deleteBatch?_eq] at planned
  cases planned
  cases indexed : catalog.find? [tenant, item] with
  | none =>
      have absent := represents.reverse tenant item
      rw [indexed] at absent
      simp only [Option.map_none, Option.getD_none, Contents.applyAll_nil, heldKeys, indexed,
        List.not_mem_nil, if_false]
      split
      · rename_i same
        rw [same, absent]
        rfl
      · rfl
  | some held =>
      rw [Option.map_some, Option.getD_some, Contents.applyAll_append, Contents.applyAll_cons,
        Contents.applyAll_nil, Contents.apply, OrderedMap.find?_erase,
        Contents.find?_applyAll_deletes]

/-- A removal leads to the catalog without the item. -/
theorem delete {removal? : Option Batch} (represents : index.Represents contents catalog)
    (planned : index.deleteBatch? contents tenant item = .ok removal?) :
    index.Represents (contents.applyAll (removal?.getD [])) (catalog.erase [tenant, item]) where
  reverse otherTenant otherItem := by
    rw [represents.find?_applyAll_deleteBatch? planned, OrderedMap.find?_erase,
      if_neg reverseKey_not_mem_heldKeys, represents.reverse]
    by_cases same : otherTenant = tenant ∧ otherItem = item
    · simp [same]
    · simp [same]
  forward otherTenant property value otherItem := by
    rw [represents.find?_applyAll_deleteBatch? planned, ItemCatalog.forwardRecord?,
      OrderedMap.find?_erase, if_neg (index.forwardKey_ne_reverseKey _ _ _ _ _ _),
      represents.forward, ItemCatalog.forwardRecord?]
    simp only [forwardKey_mem_heldKeys]
    by_cases same : [otherTenant, otherItem] = [tenant, item]
    · simp only [same, true_and, if_true, Option.bind_none]
      split
      · rfl
      · rename_i notHeld
        cases found : catalog.find? [tenant, item] with
        | none => rfl
        | some held =>
            have : held.find? property ≠ some value := fun bound => notHeld ⟨held, found, bound⟩
            simp [this]
    · simp only [same, false_and, if_false]
  closed key contained bound := by
    rw [represents.find?_applyAll_deleteBatch? planned] at bound
    split at bound
    · cases bound
    · split at bound
      · cases bound
      · exact represents.closed key contained bound

/-- Removing the range of an index leaves no item. -/
theorem clear (index : ItemIndex) (contents : Contents) :
    index.Represents (contents.applyAll [index.clearChange]) .empty := by
  have gone (key : Bytes) (contained : index.root.range.contains key = true) :
      (contents.applyAll [index.clearChange]).find? key = none := by
    rw [Contents.applyAll_cons, Contents.applyAll_nil, clearChange, Contents.apply,
      OrderedMap.find?_keepIf, contained]
    rfl
  exact {
    reverse := fun tenant item => gone _ (index.contains_reverseKey tenant item)
    forward := fun tenant property value item =>
      gone _ (index.contains_forwardKey tenant property value item)
    closed := fun key contained bound => by
      rw [gone key contained] at bound
      cases bound }

end Represents

end ItemIndex

end TenantStore
