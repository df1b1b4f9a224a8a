import Mathlib.Data.List.Basic
import Mathlib.Data.Set.List
import Mathlib.Tactic.Common
import TenantStore.Proofs.Index.Catalog
import TenantStore.Proofs.Index.Paging
import TenantStore.Proofs.Key.RoundTrip

/-!
# The identifiers of a tenant's items

The reverse entries of a tenant lie in a scope of their own, which holds no other key.  So a scan of
that scope meets the tenant's items and nothing else, each once and in the order of the bytes of
their identifiers.
-/

namespace TenantStore.ItemIndex

variable {index : ItemIndex}

/-- The scope of a tenant's reverse entries holds the reverse keys of this tenant only. -/
theorem reverseScope_contains_reverseKey_iff {tenant otherTenant item : String} :
    (index.reverseScope tenant).range.contains (index.reverseKey otherTenant item) = true ↔
      tenant = otherTenant := by
  rw [Scope.contains_range_iff, reverseKey_eq_encode, Scope.location, Key.encode_isPrefix_iff]
  simp [reverseScope, Scope.childNamed, Scope.child]

/-- The scope of a tenant's reverse entries holds no forward key. -/
theorem reverseScope_not_contains_forwardKey (tenant otherTenant property : String)
    (value : IndexValue) (item : String) :
    (index.reverseScope tenant).range.contains
      (index.forwardKey otherTenant property value item) = false := by
  rw [Bool.eq_false_iff, ne_eq, Scope.contains_range_iff, forwardKey_eq_encode, Scope.location,
    Key.encode_isPrefix_iff]
  simp only [reverseScope, Scope.childNamed, Scope.child, List.append_assoc, List.cons_append,
    List.nil_append, List.prefix_append_right_inj, List.cons_prefix_cons, not_and]
  exact fun _ same => absurd same.symm (propertySegment_ne_index property)

theorem leafSegments_reverseKey (tenant item : String) :
    (index.reverseScope tenant).leafSegments (index.reverseKey tenant item) =
      .ok [Text.bytes item] :=
  Scope.leafSegments_keyOf _

/-- Reverse keys compare as the bytes of the identifiers. -/
theorem reverseKey_lt_iff {tenant first second : String} :
    index.reverseKey tenant first < index.reverseKey tenant second ↔
      Text.bytes first < Text.bytes second := by
  rw [reverseKey_eq_encode, reverseKey_eq_encode, Key.encode_lt_iff]
  simp [Key.append_lt_append_iff, List.cons_lt_cons_iff]

/-- Reading reverse keys gives the identifiers that they were made of. -/
theorem mapM_leafSegments_reverseKey {tenant : String} {entries : List (Bytes × Bytes)}
    {items : List String} (keys : entries.map Prod.fst = items.map (index.reverseKey tenant)) :
    (entries.mapM fun entry => (index.reverseScope tenant).leafSegments entry.1) =
      .ok (items.map fun item => [Text.bytes item]) := by
  induction entries generalizing items with
  | nil =>
      rw [List.map_eq_nil_iff.1 keys.symm]
      rfl
  | cons entry entries ih =>
      rcases List.map_eq_cons_iff.1 keys.symm with ⟨item, later, rfl, isKey, rest⟩
      rw [List.mapM_cons, ← isKey, leafSegments_reverseKey, ih rest.symm]
      rfl

namespace Represents

variable {contents : Contents} {catalog : ItemCatalog}

/-- The scope of a tenant's reverse entries holds nothing else. -/
theorem exists_eq_reverseKey (represents : index.Represents contents catalog) {tenant : String}
    {key : Bytes} (contained : (index.reverseScope tenant).range.contains key = true)
    (bound : (contents.find? key).isSome = true) : ∃ item, key = index.reverseKey tenant item := by
  have inRoot : index.root.range.contains key = true :=
    Scope.contains_of_contains_child (Scope.contains_of_contains_child contained)
  rcases represents.closed key inRoot bound
    with ⟨owner, item, rfl⟩ | ⟨owner, property, value, item, rfl⟩
  · rw [reverseScope_contains_reverseKey_iff] at contained
    subst contained
    exact ⟨item, rfl⟩
  · rw [reverseScope_not_contains_forwardKey] at contained
    cases contained

/-- The identifiers that the contents give are those of the tenant's items, in ascending order of
their bytes. -/
theorem identifiersIn (represents : index.Represents contents catalog) (tenant : String) :
    ∃ items, index.identifiersIn contents tenant = .ok items ∧
      items.Pairwise (fun first second => Text.bytes first < Text.bytes second) ∧
        ∀ item, item ∈ items ↔ (catalog.find? [tenant, item]).isSome = true := by
  have isReverse : ∀ entry ∈ contents.scan (index.reverseScope tenant).range .ascending none,
      ∃ item, index.reverseKey tenant item = entry.1 := by
    rintro ⟨key, value⟩ member
    rcases List.mem_filter.1 member with ⟨bound, contained⟩
    have present : (contents.find? key).isSome = true := by
      rw [OrderedMap.find?_eq_some_iff.2 bound]
      rfl
    rcases represents.exists_eq_reverseKey contained present with ⟨item, same⟩
    exact ⟨item, same.symm⟩
  obtain ⟨items, keys⟩ : ∃ items : List String, items.map (index.reverseKey tenant) =
      (contents.scan (index.reverseScope tenant).range .ascending none).map Prod.fst := by
    apply (Set.mem_range (f := List.map (index.reverseKey tenant))).1
    rw [Set.range_list_map]
    intro key member
    rcases List.mem_map.1 member with ⟨entry, scanned, rfl⟩
    exact isReverse entry scanned
  refine ⟨items, ?_, ?_, fun item => ?_⟩
  · rw [ItemIndex.identifiersIn, mapM_leafSegments_reverseKey keys.symm]
    simp [bind, Except.bind, pure, Except.pure, List.filterMap_map]
  · have ascend := contents.ascending.filter fun entry =>
      (index.reverseScope tenant).range.contains entry.1
    have keysAscend := List.pairwise_map.2 ascend
    rw [show (contents.entries.filter fun entry =>
      (index.reverseScope tenant).range.contains entry.1).map Prod.fst = _ from keys.symm,
      List.pairwise_map] at keysAscend
    exact keysAscend.imp reverseKey_lt_iff.1
  · have inScope : (index.reverseScope tenant).range.contains (index.reverseKey tenant item) =
        true :=
      reverseScope_contains_reverseKey_iff.2 rfl
    rw [← List.mem_map_of_injective (f := index.reverseKey tenant)
      (fun _ _ same => (reverseKey_inj.1 same).2), keys, ← Option.isSome_map
      (f := Properties.toRecord), ← represents.reverse, Option.isSome_iff_exists, List.mem_map]
    constructor
    · rintro ⟨⟨key, value⟩, member, rfl⟩
      exact ⟨value, OrderedMap.find?_eq_some_iff.2 (List.mem_filter.1 member).1⟩
    · rintro ⟨value, found⟩
      exact ⟨(_, value), List.mem_filter.2 ⟨OrderedMap.find?_eq_some_iff.1 found, inScope⟩, rfl⟩

end Represents

end TenantStore.ItemIndex
