import Mathlib.Data.List.Basic
import Mathlib.Tactic.Common
import TenantStore.Proofs.Database.Answers
import TenantStore.Proofs.Index.SortOrder
import TenantStore.Proofs.OrderedMap
import TenantStore.Query.Options
import TenantStore.Table.Column

/-!
# The cells of a row

Each indexed property has a column of its own, so the cell of a column holds the text of its
property's value, and it is empty if there is none.
-/

namespace TenantStore

namespace Column

/-- Whether the message table has a column for the property. -/
def IsIndexed (property : String) : Prop := property ∈ indexed.map Prod.fst

instance (property : String) : Decidable (IsIndexed property) :=
  inferInstanceAs (Decidable (property ∈ indexed.map Prod.fst))

/-- The column of an indexed property. -/
def columnOf (property : String) : String := (ofProperty property).toOption.getD ""

theorem ofProperty_eq_ok_iff {property column : String} :
    ofProperty property = .ok column ↔ (property, column) ∈ indexed := by
  have single : ∀ entry ∈ indexed, indexed.find? (fun other => other.1 == entry.1) =
      some entry := by
    decide
  unfold ofProperty
  constructor
  · intro found
    split at found
    · rename_i entry isFound
      have same : entry.1 = property := by simpa using List.find?_some isFound
      cases found
      rw [← same]
      exact List.mem_of_find?_eq_some isFound
    · cases found
  · intro member
    rw [single _ member]

theorem ofProperty_of_isIndexed {property : String} (known : IsIndexed property) :
    ofProperty property = .ok (columnOf property) := by
  rcases List.mem_map.1 known with ⟨entry, member, rfl⟩
  have found := ofProperty_eq_ok_iff.2 member
  rw [columnOf, found]
  rfl

theorem columnOf_inj {property other : String} (known : IsIndexed property)
    (otherKnown : IsIndexed other) (same : columnOf property = columnOf other) :
    property = other := by
  have different : (indexed.map Prod.snd).Nodup := by decide
  have member := ofProperty_eq_ok_iff.1 (ofProperty_of_isIndexed known)
  have otherMember := ofProperty_eq_ok_iff.1 (ofProperty_of_isIndexed otherKnown)
  exact congrArg Prod.fst (List.inj_on_of_nodup_map different member otherMember same)

theorem isIndexed_sortProperty (property : SortProperty) : IsIndexed property.name := by
  cases property <;> decide

end Column

/-- Whether all properties have columns. -/
def Properties.AreIndexed (properties : Properties) : Prop :=
  ∀ entry ∈ properties.toList, Column.IsIndexed entry.1

namespace Column

/-- The cells of properties by their columns. -/
def cells (properties : Properties) : OrderedMap String String :=
  .ofList (properties.toList.map fun entry => (columnOf entry.1, entry.2.sortText))

variable {properties : Properties}

theorem row_eq_ok (known : properties.AreIndexed) :
    row properties =
      .ok (properties.toList.map fun entry => (columnOf entry.1, entry.2.sortText)) := by
  refine mapM_eq_ok fun entry member => ?_
  rw [ofProperty_of_isIndexed (known entry member)]
  rfl

/-- The cell of a column holds the text of its property's value. -/
theorem find?_cells (known : properties.AreIndexed) {property : String}
    (isIndexed : IsIndexed property) :
    (cells properties).find? (columnOf property) =
      (properties.find? property).map IndexValue.sortText := by
  have different :
      ((properties.toList.map fun entry => (columnOf entry.1, entry.2.sortText)).map
        Prod.fst).Nodup := by
    rw [List.map_map, List.Nodup, List.pairwise_map]
    have ascending := List.pairwise_map.1 (OrderedMap.nodup_keys_of_ascending properties.ascending)
    refine ascending.imp_of_mem ?_
    intro first second isFirst isSecond apart same
    exact apart (columnOf_inj (known first isFirst) (known second isSecond) same)
  apply Option.ext
  intro text
  rw [OrderedMap.find?_eq_some_iff, cells, OrderedMap.mem_ofList_iff different, List.mem_map,
    Option.map_eq_some_iff]
  constructor
  · rintro ⟨⟨other, value⟩, member, same⟩
    rw [Prod.mk.injEq] at same
    have isProperty := columnOf_inj (known _ member) isIndexed same.1
    subst isProperty
    exact ⟨value, OrderedMap.find?_eq_some_iff.2 member, same.2⟩
  · rintro ⟨value, found, rfl⟩
    exact ⟨(property, value), OrderedMap.find?_eq_some_iff.1 found, rfl⟩

end Column

end TenantStore
