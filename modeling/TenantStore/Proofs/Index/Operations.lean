import Mathlib.Data.List.Basic
import Mathlib.Tactic.Common
import TenantStore.Proofs.Index.Catalog

/-!
# The operations of an index

Each operation on an open database under a live context that represents a catalog leads to a
database that represents the changed catalog, and outside the range of the index it does what the
further changes of its batch do.
-/

namespace TenantStore.ItemIndex

variable {index : ItemIndex} {database : Database} {context : Context} {catalog : ItemCatalog}

/-- The contents after an operation on an index: they represent a catalog, and outside its range
they are what the further changes make of the contents before. -/
structure Updates (index : ItemIndex) (before : Contents) (further : Batch) (catalog : ItemCatalog)
    (after : Contents) : Prop where
  represents : index.Represents after catalog
  frame (key : Bytes) (outside : index.root.range.contains key = false) :
    after.find? key = (before.applyAll further).find? key

/-- A batch of an index followed by changes outside its range. -/
theorem Updates.of_within {contents : Contents} {batch further : Batch}
    (represents : index.Represents (contents.applyAll batch) catalog)
    (within : batch.Within index.root.range) (avoids : further.Avoids index.root.range) :
    index.Updates contents further catalog (contents.applyAll (batch ++ further)) where
  represents := by
    rw [Contents.applyAll_append]
    exact represents.applyAll_of_avoids avoids
  frame key outside := by
    have untouched (change : Change) (member : change ∈ batch) : ¬change.touches key := by
      intro touches
      rw [within change member key touches] at outside
      cases outside
    rw [Contents.applyAll_append]
    have same := Contents.find?_applyAll_of_untouched untouched contents
    exact Contents.find?_applyAll_congr further same

theorem Updates.trans {before between after : Contents} {first second : ItemCatalog}
    (one : index.Updates before [] first between) (other : index.Updates between [] second after) :
    index.Updates before [] second after where
  represents := other.represents
  frame key outside := (other.frame key outside).trans (one.frame key outside)

/-- The contents after an operation are determined by the catalog that they represent. -/
theorem Updates.eq {before one other : Contents} {further : Batch}
    (isOne : index.Updates before further catalog one)
    (isOther : index.Updates before further catalog other) : one = other := by
  apply OrderedMap.eq_of_find?
  intro key
  cases contained : index.root.range.contains key with
  | false => rw [isOne.frame key contained, isOther.frame key contained]
  | true =>
      by_cases bound : (one.find? key).isSome = true ∨ (other.find? key).isSome = true
      · rcases bound.elim (isOne.represents.closed key contained)
          (isOther.represents.closed key contained) with
          ⟨tenant, item, rfl⟩ | ⟨tenant, property, value, item, rfl⟩
        · rw [isOne.represents.reverse, isOther.represents.reverse]
        · rw [isOne.represents.forward, isOther.represents.forward]
      · simp only [not_or, Option.not_isSome_iff_eq_none] at bound
        rw [bound.1, bound.2]

theorem on_putWith (admits : database.Admits context)
    (represents : index.Represents database.contents catalog) {properties : Properties}
    (indexable : properties.isEmpty = false) (tenant item : String) {further : Batch}
    (avoids : further.Avoids index.root.range) :
    ∃ contents, (index.putWith context tenant item properties further).on database =
        (.ok (), { database with contents }) ∧
      index.Updates database.contents further (catalog.insert [tenant, item] properties)
        contents := by
  have planned : index.putBatch database.contents tenant item properties = _ :=
    represents.putBatch_eq indexable
  rw [putWith, Database.on_update admits, planned]
  refine ⟨_, rfl, Updates.of_within (represents.put indexable planned) ?_ avoids⟩
  exact represents.within_putBatch indexable planned

theorem on_put (admits : database.Admits context)
    (represents : index.Represents database.contents catalog) {properties : Properties}
    (indexable : properties.isEmpty = false) (tenant item : String) :
    ∃ contents, (index.put context tenant item properties).on database =
        (.ok (), { database with contents }) ∧
      index.Represents contents (catalog.insert [tenant, item] properties) := by
  rcases on_putWith admits represents indexable tenant item (Batch.avoids_nil _)
    with ⟨contents, happens, updates⟩
  exact ⟨contents, happens, updates.represents⟩

theorem on_putWith_of_isEmpty (admits : database.Admits context) {properties : Properties}
    (nothing : properties.isEmpty = true) (tenant item : String) (further : Batch) :
    (index.putWith context tenant item properties further).on database =
      (.error .emptyIndexSet, database) := by
  have refused : index.putBatch database.contents tenant item properties =
      .error .emptyIndexSet := by
    simp [putBatch, nothing, throw, throwThe, MonadExceptOf.throw, bind, Except.bind]
  rw [putWith, Database.on_update admits, refused]
  rfl

theorem on_deleteWith (admits : database.Admits context)
    (represents : index.Represents database.contents catalog) (tenant item : String)
    {further : Batch} (avoids : further.Avoids index.root.range) :
    ∃ contents, (index.deleteWith context tenant item further).on database =
        (.ok (catalog.find? [tenant, item]).isSome, { database with contents }) ∧
      index.Updates database.contents further (catalog.erase [tenant, item]) contents := by
  have planned : index.deleteBatch? database.contents tenant item = _ := represents.deleteBatch?_eq
  have within := represents.within_deleteBatch? planned
  have updates := Updates.of_within (represents.delete planned) within avoids
  rw [deleteWith, Database.on_update admits, planned]
  exact ⟨_, by simp [bind, Except.bind, pure, Except.pure], updates⟩

theorem on_delete (admits : database.Admits context)
    (represents : index.Represents database.contents catalog) (tenant item : String) :
    ∃ contents, (index.delete context tenant item).on database =
        (.ok (catalog.find? [tenant, item]).isSome, { database with contents }) ∧
      index.Represents contents (catalog.erase [tenant, item]) := by
  rcases on_deleteWith admits represents tenant item (Batch.avoids_nil _)
    with ⟨contents, happens, updates⟩
  exact ⟨contents, happens, updates.represents⟩

theorem on_clear (index : ItemIndex) (admits : database.Admits context) :
    ∃ contents, (index.clear context).on database = (.ok (), { database with contents }) ∧
      index.Updates database.contents [] .empty contents := by
  rw [clear, Database.on_write admits]
  refine ⟨_, rfl, Represents.clear index database.contents, ?_⟩
  intro key outside
  rw [Contents.applyAll_nil, Contents.applyAll_cons, Contents.applyAll_nil,
    Contents.find?_apply_of_untouched]
  simp [clearChange, Change.touches, outside]

theorem on_properties? (admits : database.Admits context)
    (represents : index.Represents database.contents catalog) (tenant item : String) :
    (index.properties? context tenant item).on database =
      (.ok (catalog.find? [tenant, item]), database) := by
  rw [properties?, Database.on_read admits, represents.propertiesIn?]

section Refused

variable (refuses : ¬database.Admits context) (index) (tenant item : String) (further : Batch)
include refuses

theorem on_putWith_of_not_admits (properties : Properties) :
    ∃ problem, (index.putWith context tenant item properties further).on database =
      (.error problem, database) :=
  Database.on_update_of_not_admits refuses _

theorem on_deleteWith_of_not_admits :
    ∃ problem, (index.deleteWith context tenant item further).on database =
      (.error problem, database) :=
  Database.on_update_of_not_admits refuses _

omit further tenant item in
theorem on_clear_of_not_admits :
    ∃ problem, (index.clear context).on database = (.error problem, database) :=
  Database.on_update_of_not_admits refuses fun _ => .ok ((), [index.clearChange])

end Refused

end TenantStore.ItemIndex
