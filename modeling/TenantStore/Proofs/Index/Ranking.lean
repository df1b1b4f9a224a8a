import Mathlib.Data.List.Basic
import Mathlib.Tactic.Common
import TenantStore.Proofs.Index.Catalog
import TenantStore.Proofs.Index.Narrowing

/-!
# Rankings

The items of a tenant that carry a property are ranked by the bytes of its value and then by the
bytes of their identifiers.  The forward entries in the scope of the property are exactly the
ranking, in its order.
-/

namespace TenantStore

namespace ItemCatalog

/-- The place and the item of a catalog's entry, if it is the tenant's and carries the property. -/
def rank? (tenant property : String) (entry : List String × Properties) :
    Option (List Bytes × IndexedItem) :=
  match entry.1, entry.2.find? property with
  | [owner, item], some value =>
    if owner = tenant then some (value.place item, ⟨item, entry.2⟩) else none
  | _, _ => none

/-- The tenant's items that carry the property, by their places. -/
def ranking (catalog : ItemCatalog) (tenant property : String) :
    OrderedMap (List Bytes) IndexedItem :=
  .ofList (catalog.toList.filterMap (rank? tenant property))

theorem rank?_eq_some_iff {tenant property : String} {entry : List String × Properties}
    {place : List Bytes} {item : IndexedItem} :
    rank? tenant property entry = some (place, item) ↔
      entry = ([tenant, item.identifier], item.properties) ∧
        ∃ value, item.properties.find? property = some value ∧
          place = value.place item.identifier := by
  obtain ⟨key, properties⟩ := entry
  obtain ⟨identifier, held⟩ := item
  unfold rank?
  split
  · rename_i owner name value isKey carried
    simp only at isKey carried
    subst isKey
    by_cases same : owner = tenant
    · subst same
      rw [if_pos rfl]
      constructor
      · intro ranked
        cases ranked
        exact ⟨rfl, value, carried, rfl⟩
      · rintro ⟨isEntry, found, isFound, rfl⟩
        cases isEntry
        rw [carried] at isFound
        cases isFound
        rfl
    · rw [if_neg same]
      constructor
      · intro ranked
        cases ranked
      · rintro ⟨isEntry, _⟩
        cases isEntry
        exact absurd rfl same
  · rename_i noMatch
    constructor
    · intro ranked
      cases ranked
    · rintro ⟨isEntry, value, carried, rfl⟩
      cases isEntry
      exact absurd carried (noMatch _ _ value rfl)

variable {catalog : ItemCatalog} {tenant property : String}

theorem nodup_ranked (catalog : ItemCatalog) (tenant property : String) :
    ((catalog.toList.filterMap (rank? tenant property)).map Prod.fst).Nodup := by
  rw [List.Nodup, List.pairwise_map]
  refine List.Pairwise.filterMap _ ?_ catalog.ascending
  rintro ⟨key, properties⟩ ⟨otherKey, otherProperties⟩ below ⟨place, item⟩ ranked
    ⟨otherPlace, otherItem⟩ otherRanked same
  rcases rank?_eq_some_iff.1 ranked with ⟨isEntry, value, _, isPlace⟩
  rcases rank?_eq_some_iff.1 otherRanked with ⟨otherIsEntry, otherValue, _, otherIsPlace⟩
  simp only at same
  have identifiers : item.identifier = otherItem.identifier := by
    rw [isPlace, otherIsPlace] at same
    simp only [IndexValue.place, List.cons.injEq, Text.bytes_inj, and_true] at same
    exact same.2
  cases isEntry
  cases otherIsEntry
  simp only [identifiers] at below
  exact KeyOrder.irrefl _ below

/-- The ranking holds the tenant's items that carry the property, each at its place. -/
theorem mem_ranking_iff {place : List Bytes} {item : IndexedItem} :
    (place, item) ∈ (catalog.ranking tenant property).toList ↔
      catalog.find? [tenant, item.identifier] = some item.properties ∧
        ∃ value, item.properties.find? property = some value ∧
          place = value.place item.identifier := by
  rw [ranking, OrderedMap.mem_ofList_iff (nodup_ranked catalog tenant property),
    List.mem_filterMap, OrderedMap.find?_eq_some_iff]
  constructor
  · rintro ⟨entry, member, ranked⟩
    rcases rank?_eq_some_iff.1 ranked with ⟨rfl, carried⟩
    exact ⟨member, carried⟩
  · rintro ⟨member, carried⟩
    exact ⟨_, member, rank?_eq_some_iff.2 ⟨rfl, carried⟩⟩

end ItemCatalog

namespace Scope

/-- Keys below a scope compare as their segments do. -/
theorem keyOf_lt_iff (scope : Scope) (first second : List Bytes) :
    scope.keyOf first < scope.keyOf second ↔ first < second := by
  rw [keyOf, keyOf, Key.append_lt_append_iff, Key.encode_lt_iff]

end Scope

namespace ItemIndex

/-- The forward entry of an item at its place in the order of a property. -/
def forwardEntry (index : ItemIndex) (tenant property : String)
    (ranked : List Bytes × IndexedItem) : Bytes × Bytes :=
  ((index.propertyScope tenant property).keyOf ranked.1, ranked.2.toRecord)

/-- The entries in the scope of a property are those of the ranked items, in their order. -/
theorem Represents.entries_eq {index : ItemIndex} {contents : Contents} {catalog : ItemCatalog}
    (represents : index.Represents contents catalog) (tenant property : String) :
    (contents.toList.filter fun entry =>
        (index.propertyScope tenant property).range.contains entry.1) =
      (catalog.ranking tenant property).toList.map (index.forwardEntry tenant property) := by
  apply OrderedMap.eq_of_ascending (contents.ascending.filter _)
  · rw [List.pairwise_map]
    refine (catalog.ranking tenant property).ascending.imp fun {first second} below => ?_
    exact (Scope.keyOf_lt_iff _ _ _).2 below
  · rintro ⟨key, record⟩
    have isBound : (key, record) ∈ contents.entries ↔ contents.find? key = some record :=
      OrderedMap.find?_eq_some_iff.symm
    rw [List.mem_filter, List.mem_map, isBound]
    constructor
    · rintro ⟨bound, contained⟩
      have inRoot : index.root.range.contains key = true :=
        Scope.contains_of_contains_child (Scope.contains_of_contains_child contained)
      rcases represents.closed key inRoot (by rw [bound]; rfl) with
        ⟨other, item, rfl⟩ | ⟨other, otherProperty, value, item, rfl⟩
      · rw [index.not_contains_reverseKey] at contained
        cases contained
      · obtain ⟨rfl, rfl⟩ := contains_forwardKey_iff.1 contained
        rw [represents.forward, ItemCatalog.forwardRecord?, Option.bind_eq_some_iff] at bound
        rcases bound with ⟨properties, found, written⟩
        split at written
        · rename_i carried
          cases written
          exact ⟨(value.place item, ⟨item, properties⟩),
            ItemCatalog.mem_ranking_iff.2 ⟨found, value, carried, rfl⟩, rfl⟩
        · cases written
    · rintro ⟨⟨place, item⟩, member, isEntry⟩
      rcases ItemCatalog.mem_ranking_iff.1 member with ⟨found, value, carried, rfl⟩
      cases isEntry
      refine ⟨?_, Scope.contains_keyOf _ _⟩
      have forward := represents.forward tenant property value item.identifier
      rw [ItemCatalog.forwardRecord?, found, Option.bind_some, if_pos carried] at forward
      exact forward

end ItemIndex

end TenantStore
