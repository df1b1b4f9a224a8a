import Mathlib.Data.List.Basic
import Mathlib.Tactic.Common
import TenantStore.Proofs.Message.Catalog
import TenantStore.Proofs.Index.Slices
import TenantStore.Proofs.Table.Conditions
import TenantStore.Table.Messages

/-!
# Rows that a query selects

The message table that holds a catalog has a row for each message.  The rows that a query of the
table selects and sorts are those of the items that the index lists, in the same order.
-/

namespace TenantStore

/-- A listing is the ascending one in its direction. -/
theorem ItemCatalog.listed_eq_arrange (catalog : ItemCatalog) (tenant : String)
    (filters : List Filter) (property : String) (direction : Direction) :
    catalog.listed tenant filters property direction none =
      direction.arrange (catalog.listed tenant filters property .ascending none) := by
  rw [listed, listed, Direction.arrange_map, listing, listing, Direction.arrange_filter]
  rfl

/-- The row of a message. -/
def StoredMessage.row (stored : StoredMessage) : MessageRow :=
  ⟨stored.content, stored.payload, Column.cells stored.properties⟩

/-- The place of a selected row in the order of the rows. -/
def MessageTable.Selected.place (selected : Selected) : List Bytes :=
  [Text.bytes selected.value, Text.bytes selected.identifier]

namespace MessageCatalog

/-- Whether all properties of all messages have columns. -/
def IsIndexed (catalog : MessageCatalog) : Prop :=
  ∀ key stored, catalog.find? key = some stored → stored.properties.AreIndexed

/-- The message table that holds the catalog. -/
def table (catalog : MessageCatalog) : OrderedMap (List String) MessageRow :=
  catalog.mapValues StoredMessage.row

/-- The row of a stored message. -/
def rowOf (catalog : MessageCatalog) (tenant identifier : String) : MessageRow :=
  ((catalog.find? [tenant, identifier]).map StoredMessage.row).getD ⟨[], none, .empty⟩

/-- The row of a listed item, as a query selects it. -/
def selected (catalog : MessageCatalog) (tenant property : String) (item : IndexedItem) :
    MessageTable.Selected :=
  ⟨((item.properties.find? property).map IndexValue.sortText).getD "", item.identifier,
    catalog.rowOf tenant item.identifier⟩

variable {catalog : MessageCatalog} {tenant property : String} {stored : StoredMessage}

theorem selected_eq {identifier : String} {value : IndexValue}
    (found : catalog.find? [tenant, identifier] = some stored)
    (carried : stored.properties.find? property = some value) :
    catalog.selected tenant property ⟨identifier, stored.properties⟩ =
      ⟨value.sortText, identifier, stored.row⟩ := by
  simp [selected, rowOf, found, carried]

/-- The place of a listed item is that of its row. -/
theorem place_selected {item : IndexedItem} {place : List Bytes}
    (placed : item.place? property = some place) :
    (catalog.selected tenant property item).place = place := by
  rcases Option.map_eq_some_iff.1 placed with ⟨value, carried, rfl⟩
  simp [selected, carried, MessageTable.Selected.place, IndexValue.place, IndexValue.sortBytes]

/-- Listed are the tenant's messages that any filter admits and that carry the sort property. -/
theorem mem_listed_iff {filters : List Filter} {direction : Direction} {item : IndexedItem} :
    item ∈ catalog.items.listed tenant filters property direction none ↔
      ∃ stored value, catalog.find? [tenant, item.identifier] = some stored ∧
        stored.properties = item.properties ∧ Filter.anyMatches filters item.properties = true ∧
          item.properties.find? property = some value := by
  rw [ItemCatalog.mem_listed_iff, items, OrderedMap.find?_mapValues, Option.map_eq_some_iff]
  constructor
  · rintro ⟨⟨stored, found, same⟩, matched, value, carried, _⟩
    exact ⟨stored, value, found, same, matched, carried⟩
  · rintro ⟨stored, value, found, same, matched, carried⟩
    exact ⟨⟨stored, found, same⟩, matched, value, carried, fun _ impossible => by cases impossible⟩

end MessageCatalog

namespace MessageTable

namespace Selected

/-- One row does not come after another exactly if its place does not lie beyond. -/
theorem le_iff {first second : Selected} :
    first.le second = true ↔ ¬second.place < first.place := by
  simp only [le, place, Bool.or_eq_true, Bool.and_eq_true, decide_eq_true_eq, List.cons_lt_cons_iff,
    List.not_lt_nil, and_false, or_false, not_or, not_and]
  constructor
  · rintro (below | ⟨same, notAbove⟩)
    · refine ⟨fun above => KeyOrder.irrefl _ (KeyOrder.trans _ _ _ below above), fun same => ?_⟩
      rw [same] at below
      exact absurd below (KeyOrder.irrefl _)
    · rw [same]
      exact ⟨KeyOrder.irrefl _, fun _ => notAbove⟩
  · rintro ⟨notAbove, whenSame⟩
    by_cases below : Text.bytes first.value < Text.bytes second.value
    · exact Or.inl below
    · have same := KeyOrder.eq_of_not_lt _ _ below notAbove
      exact Or.inr ⟨same, whenSame same.symm⟩

theorem le_trans (first second third : Selected) (before : first.le second = true)
    (after : second.le third = true) : first.le third = true := by
  rw [le_iff] at before after ⊢
  intro below
  by_cases above : first.place < second.place
  · exact after (KeyOrder.trans _ _ _ below above)
  · rw [KeyOrder.eq_of_not_lt _ _ above before] at below
    exact after below

theorem le_total (first second : Selected) : (first.le second || second.le first) = true := by
  rw [Bool.or_eq_true, le_iff, le_iff]
  by_cases below : second.place < first.place
  · exact Or.inr fun above => KeyOrder.irrefl _ (KeyOrder.trans _ _ _ below above)
  · exact Or.inl below

/-- Rows that come neither before nor after each other have the same place. -/
theorem place_eq_of_le {first second : Selected} (before : first.le second = true)
    (after : second.le first = true) : first.place = second.place := by
  rw [le_iff] at before after
  exact KeyOrder.eq_of_not_lt _ _ after before

end Selected

variable {catalog : MessageCatalog} {tenant property : String} {filters : List Filter}

/-- A row is selected if it is the tenant's, the condition is true of it, and its sort column is not
empty. -/
theorem select?_eq_some_iff {sortColumn : String} {condition? : Option Condition}
    {key : List String} {row : MessageRow} {selected : Selected} :
    select? tenant sortColumn condition? (key, row) = some selected ↔
      key = [tenant, selected.identifier] ∧
        (condition?.all fun condition => condition.selects row.cells.find?) = true ∧
          row.cells.find? sortColumn = some selected.value ∧ row = selected.row := by
  obtain ⟨value, identifier, selectedRow⟩ := selected
  unfold select?
  split
  · rename_i owner name text isKey isText
    simp only at isKey isText
    subst isKey
    rw [isText]
    cases condition? with
    | none =>
        simp only [Option.ite_none_right_eq_some, Bool.and_true, decide_eq_true_eq, Option.some_inj,
          Selected.mk.injEq, List.cons.injEq, and_true, Option.all_none]
        grind
    | some condition =>
        simp only [Option.ite_none_right_eq_some, Bool.and_eq_true, decide_eq_true_eq,
          Option.some_inj, Selected.mk.injEq, List.cons.injEq, and_true, Option.all_some]
        grind
  · rename_i noMatch
    refine iff_of_false (by simp) ?_
    rintro ⟨isKey, _, isText, _⟩
    exact noMatch _ _ _ isKey isText

section Held

variable (known : catalog.IsIndexed) (sortable : Column.IsIndexed property)
  (indexed : ∀ filter ∈ filters, filter.IsIndexed) (valid : Filter.validateAll filters = .ok ())
include known sortable indexed valid

/-- The selected rows are those of the listed items. -/
theorem mem_selected_iff (tenant : String) (row : Selected) :
    row ∈ catalog.table.toList.filterMap
        (select? tenant (Column.columnOf property) (Condition.ofIndexed filters)) ↔
      row ∈ (catalog.items.listed tenant filters property .ascending none).map
        (catalog.selected tenant property) := by
  rw [List.mem_filterMap, List.mem_map]
  constructor
  · rintro ⟨⟨key, held⟩, member, isSelected⟩
    rcases select?_eq_some_iff.1 isSelected with ⟨rfl, admitted, isText, rfl⟩
    have found := OrderedMap.find?_eq_some_iff.2 member
    rw [MessageCatalog.table, OrderedMap.find?_mapValues, Option.map_eq_some_iff] at found
    rcases found with ⟨stored, found, isRow⟩
    have admits := Condition.selects_ofIndexed (known _ _ found) indexed valid
    have cell := Column.find?_cells (known _ _ found) sortable
    rw [← isRow] at admitted isText
    rcases Option.map_eq_some_iff.1 (cell.symm.trans isText) with ⟨value, carried, written⟩
    refine ⟨⟨row.identifier, stored.properties⟩, ?_, ?_⟩
    · exact MessageCatalog.mem_listed_iff.2
        ⟨stored, value, found, rfl, admits.symm.trans admitted, carried⟩
    · rw [MessageCatalog.selected_eq found carried, written, isRow]
  · rintro ⟨⟨identifier, properties⟩, member, rfl⟩
    rcases MessageCatalog.mem_listed_iff.1 member with ⟨stored, value, found, rfl, matched, carried⟩
    have admits := Condition.selects_ofIndexed (known _ _ found) indexed valid
    have cell := Column.find?_cells (known _ _ found) sortable
    rw [MessageCatalog.selected_eq found carried]
    refine ⟨([tenant, identifier], stored.row), ?_, select?_eq_some_iff.2 ⟨rfl, ?_, ?_, rfl⟩⟩
    · apply OrderedMap.find?_eq_some_iff.1
      rw [MessageCatalog.table, OrderedMap.find?_mapValues, found]
      rfl
    · exact admits.trans matched
    · rw [carried] at cell
      exact cell

omit known sortable indexed valid in
theorem nodup_selected (catalog : MessageCatalog) (tenant sortColumn : String)
    (condition? : Option Condition) :
    (catalog.table.toList.filterMap (select? tenant sortColumn condition?)).Nodup := by
  refine List.Pairwise.filterMap _ ?_ catalog.table.ascending
  rintro ⟨key, row⟩ ⟨otherKey, otherRow⟩ below selected isSelected other isOther same
  rcases select?_eq_some_iff.1 isSelected with ⟨rfl, _⟩
  rcases select?_eq_some_iff.1 isOther with ⟨rfl, _⟩
  rw [same] at below
  exact KeyOrder.irrefl _ below

omit known sortable indexed valid in
/-- The rows of listed items are in the order of their places. -/
theorem pairwise_place_listed (catalog : MessageCatalog) (tenant property : String)
    (filters : List Filter) :
    ((catalog.items.listed tenant filters property .ascending none).map
      (catalog.selected tenant property)).Pairwise fun first second =>
        first.place < second.place := by
  rw [List.pairwise_map]
  refine (catalog.items.pairwise_listed tenant filters property .ascending none).imp ?_
  rintro first second ⟨place, otherPlace, placed, otherPlaced, before⟩
  rw [MessageCatalog.place_selected placed, MessageCatalog.place_selected otherPlaced]
  exact before

/-- The rows that a query selects, sorted in ascending order. -/
theorem mergeSort_selected_eq (tenant : String) :
    (catalog.table.toList.filterMap
        (select? tenant (Column.columnOf property) (Condition.ofIndexed filters))).mergeSort
          Selected.le =
      (catalog.items.listed tenant filters property .ascending none).map
        (catalog.selected tenant property) := by
  have ordered := pairwise_place_listed catalog tenant property filters
  have places : (((catalog.items.listed tenant filters property .ascending none).map
      (catalog.selected tenant property)).map Selected.place).Nodup := by
    rw [List.Nodup, List.pairwise_map]
    refine ordered.imp fun {first second} before same => ?_
    rw [same] at before
    exact KeyOrder.irrefl _ before
  have sameRows := mem_selected_iff known sortable indexed valid tenant
  have sorted := List.mergeSort_perm (catalog.table.toList.filterMap
    (select? tenant (Column.columnOf property) (Condition.ofIndexed filters))) Selected.le
  have permuted :=
    (List.perm_ext_iff_of_nodup (nodup_selected _ _ _ _) (.of_map _ places)).2 sameRows
  refine List.Perm.eq_of_pairwise ?_
    (List.pairwise_mergeSort Selected.le_trans Selected.le_total _) ?_
    (sorted.trans permuted)
  · intro row other isSelected isListed before after
    have isListedToo := (sameRows row).1 (sorted.mem_iff.1 isSelected)
    exact List.inj_on_of_nodup_map places isListedToo isListed
      (Selected.place_eq_of_le before after)
  · refine ordered.imp fun {first second} before => Selected.le_iff.2 fun after => ?_
    exact KeyOrder.irrefl _ (KeyOrder.trans _ _ _ before after)

/-- The rows that a query selects and sorts are those of the listed items, in their order. -/
theorem selectedRows_eq (tenant : String) (direction : Direction) :
    selectedRows catalog.table tenant (Column.columnOf property) direction
        (Condition.ofIndexed filters) =
      (catalog.items.listed tenant filters property direction none).map
        (catalog.selected tenant property) := by
  rw [selectedRows, mergeSort_selected_eq known sortable indexed valid tenant,
    Direction.arrange_map, ← ItemCatalog.listed_eq_arrange]

end Held

end MessageTable

end TenantStore
