import Mathlib.Data.List.Basic
import Mathlib.Tactic.Common
import TenantStore.Index.Store
import TenantStore.Proofs.Index.SortOrder
import TenantStore.Proofs.Key.Ranges

/-!
# The keys of an index

The names of a tenant, a property, a value and an item are segments of their own, so two forward
keys are the same only if all four are, and no forward key is a reverse key.  All of them lie in the
range of the index, and a forward key lies in the scope of its own property only.
-/

namespace TenantStore

namespace ItemIndex

/-- The segment that names the forward entries of a property. -/
def propertySegment (property : String) : Bytes := Text.bytes ("__" ++ property ++ "__")

theorem propertySegment_inj {property other : String} :
    propertySegment property = propertySegment other ↔ property = other := by
  simp [propertySegment]

theorem propertySegment_ne_index (property : String) :
    propertySegment property ≠ Text.bytes "index" := by
  have front : Text.bytes "__" = [95, 95] := by decide
  have other : Text.bytes "index" = [105, 110, 100, 101, 120] := by decide
  simp [propertySegment, front, other]

theorem reverseKey_eq_encode (index : ItemIndex) (tenant item : String) :
    index.reverseKey tenant item =
      Key.encode (index.root.path ++ [Text.bytes tenant, Text.bytes "index", Text.bytes item]) := by
  simp [reverseKey, reverseScope, Scope.key, Scope.keyOf_eq_encode, Scope.childNamed, Scope.child]

theorem forwardKey_eq_encode (index : ItemIndex) (tenant property : String) (value : IndexValue)
    (item : String) :
    index.forwardKey tenant property value item =
      Key.encode (index.root.path ++
        [Text.bytes tenant, propertySegment property, value.sortBytes, Text.bytes item]) := by
  simp [forwardKey, propertyScope, Scope.keyOf_eq_encode, Scope.childNamed, Scope.child,
    propertySegment]

@[simp]
theorem reverseKey_inj {index : ItemIndex} {tenant item otherTenant otherItem : String} :
    index.reverseKey tenant item = index.reverseKey otherTenant otherItem ↔
      tenant = otherTenant ∧ item = otherItem := by
  rw [reverseKey_eq_encode, reverseKey_eq_encode, Key.encode_inj]
  simp

@[simp]
theorem forwardKey_inj {index : ItemIndex} {tenant property item : String} {value : IndexValue}
    {otherTenant otherProperty otherItem : String} {otherValue : IndexValue} :
    index.forwardKey tenant property value item =
        index.forwardKey otherTenant otherProperty otherValue otherItem ↔
      tenant = otherTenant ∧ property = otherProperty ∧ value = otherValue ∧ item = otherItem := by
  rw [forwardKey_eq_encode, forwardKey_eq_encode, Key.encode_inj]
  simp [propertySegment_inj]

@[simp]
theorem forwardKey_ne_reverseKey (index : ItemIndex) (tenant property : String) (value : IndexValue)
    (item otherTenant otherItem : String) :
    index.forwardKey tenant property value item ≠ index.reverseKey otherTenant otherItem := by
  rw [forwardKey_eq_encode, reverseKey_eq_encode, ne_eq, Key.encode_inj]
  simp

@[simp]
theorem reverseKey_ne_forwardKey (index : ItemIndex) (otherTenant otherItem : String)
    (tenant property : String) (value : IndexValue) (item : String) :
    index.reverseKey otherTenant otherItem ≠ index.forwardKey tenant property value item :=
  (index.forwardKey_ne_reverseKey tenant property value item otherTenant otherItem).symm

theorem contains_reverseKey (index : ItemIndex) (tenant item : String) :
    index.root.range.contains (index.reverseKey tenant item) = true :=
  Scope.contains_of_contains_child (Scope.contains_of_contains_child (Scope.contains_keyOf _ _))

theorem contains_forwardKey (index : ItemIndex) (tenant property : String) (value : IndexValue)
    (item : String) :
    index.root.range.contains (index.forwardKey tenant property value item) = true :=
  Scope.contains_of_contains_child (Scope.contains_of_contains_child (Scope.contains_keyOf _ _))

/-- The scope of a property holds no reverse key. -/
theorem not_contains_reverseKey (index : ItemIndex) (tenant property otherTenant item : String) :
    (index.propertyScope tenant property).range.contains (index.reverseKey otherTenant item) =
      false := by
  rw [Bool.eq_false_iff, ne_eq, Scope.contains_range_iff, reverseKey_eq_encode, Scope.location,
    Key.encode_isPrefix_iff]
  simp only [propertyScope, Scope.childNamed, Scope.child, List.append_assoc, List.cons_append,
    List.nil_append, List.prefix_append_right_inj, List.cons_prefix_cons, not_and]
  exact fun _ same => absurd same (propertySegment_ne_index property)

/-- The scope of a property holds the forward keys of this property and tenant only. -/
theorem contains_forwardKey_iff {index : ItemIndex}
    {tenant property otherTenant otherProperty : String} {value : IndexValue} {item : String} :
    (index.propertyScope tenant property).range.contains
        (index.forwardKey otherTenant otherProperty value item) = true ↔
      tenant = otherTenant ∧ property = otherProperty := by
  rw [Scope.contains_range_iff, forwardKey_eq_encode, Scope.location, Key.encode_isPrefix_iff]
  simp only [propertyScope, Scope.childNamed, Scope.child, List.append_assoc, List.cons_append,
    List.nil_append, List.prefix_append_right_inj, List.cons_prefix_cons, List.nil_prefix, and_true,
    Text.bytes_inj]
  change tenant = otherTenant ∧ propertySegment property = propertySegment otherProperty ↔ _
  rw [propertySegment_inj]

end ItemIndex

end TenantStore
