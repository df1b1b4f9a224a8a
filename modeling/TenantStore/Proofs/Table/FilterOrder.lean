import Mathlib.Data.List.Basic
import Mathlib.Tactic.Common
import TenantStore.Proofs.Message.Refusals
import TenantStore.Proofs.Table.Query

/-!
# The order of filters

A list of filters admits what any of them admits, so their order should not matter.  It does in two
ways.  Filters become a condition one by one, and as soon as one admits every item the others are
not looked at, so a property without a column is refused only in front of it.  And how deeply a
condition is nested depends on the order of its alternatives, so one order may fit into a statement
where another does not.  Apart from these two, filters in another order are answered alike in every
state of the table.
-/

namespace TenantStore

namespace Condition

variable {filters others : List Filter}

/-- Filters are refused exactly if a leading one names a property without a column. -/
theorem ofFilters_eq_unsupported_iff :
    (∃ property, ofFilters filters = .error (.unsupportedProperty property)) ↔
      ∃ filter ∈ leading filters, ¬filter.IsIndexed := by
  have isUnsupported : (∃ filter ∈ leading filters, ¬filter.IsIndexed) ↔ ¬IsSupported filters := by
    simp [IsSupported]
  rw [isUnsupported]
  constructor
  · rintro ⟨property, fails⟩ supported
    rw [ofFilters_of_isSupported supported] at fails
    cases fails
  · exact ofFilters_of_not_isSupported

section Permuted

variable (same : filters.Perm others)
include same

/-- Conditions with the same alternatives select the same rows. -/
theorem all_selects_of_perm (cell : String → Option String) :
    ((ofIndexed filters).all fun condition => condition.selects cell) =
      (ofIndexed others).all fun condition => condition.selects cell := by
  have anyEmpty : filters.any OrderedMap.isEmpty = others.any OrderedMap.isEmpty := same.any_eq
  rw [ofIndexed, ofIndexed, same.isEmpty_eq, anyEmpty]
  split
  · rfl
  · rw [Option.all_some, Option.all_some, Bool.eq_iff_iff, selects_iff, selects_iff]
    simp only [(same.map indexedTerms).mem_iff]

end Permuted

end Condition

namespace MessageTable

variable {filters others : List Filter}

/-- Rows are selected alike by conditions that are true of the same rows. -/
theorem selectedRows_of_selects {condition? other? : Option Condition}
    (alike : ∀ cell, (condition?.all fun condition => condition.selects cell) =
      other?.all fun condition => condition.selects cell)
    (table : OrderedMap (List String) MessageRow) (tenant sortColumn : String)
    (direction : Direction) :
    selectedRows table tenant sortColumn direction condition? =
      selectedRows table tenant sortColumn direction other? := by
  have rows : select? tenant sortColumn condition? = select? tenant sortColumn other? := by
    funext ⟨key, row⟩
    apply Option.ext
    intro selected
    rw [select?_eq_some_iff, select?_eq_some_iff, alike]
  rw [selectedRows, rows, selectedRows]

/-- Whether queries with either list of filters are answered alike in every state: by the same page
or an error of one kind, with the same database afterwards. -/
def QueriedAlike (filters others : List Filter) : Prop :=
  ∀ (context : Context) (tenant : String) (sort : Option MessageSort)
    (pagination : Option Pagination) (database : TableDatabase),
    upToKind ((query context tenant filters sort pagination).on database).1 =
        upToKind ((query context tenant others sort pagination).on database).1 ∧
      ((query context tenant filters sort pagination).on database).2 =
        ((query context tenant others sort pagination).on database).2

theorem queriedAlike_iff :
    QueriedAlike filters others ↔ ∀ context tenant sort pagination database,
      upToKind (answer context tenant filters sort pagination database) =
        upToKind (answer context tenant others sort pagination database) := by
  simp only [QueriedAlike, query_on, and_true]
  constructor
  · intro alike context tenant sort pagination database
    exact alike context tenant (some sort) pagination database
  · exact fun alike context tenant sort => alike context tenant (sort.getD {})

section Answers

variable {context : Context} {tenant : String} {sort : MessageSort} {pagination : Option Pagination}
  {database : TableDatabase}

theorem upToKind_answer_of_invalid {problem : StoreError}
    (invalid : Filter.validateAll filters = .error problem) :
    upToKind (answer context tenant filters sort pagination database) = .error .invalidQuery := by
  rcases Filter.exists_invalidQuery_of_validateAll invalid with ⟨fault, rfl⟩
  rw [answer, invalid]
  rfl

theorem answer_of_isSupported (valid : Filter.validateAll filters = .ok ())
    (supported : Condition.IsSupported filters) :
    answer context tenant filters sort pagination database =
      (decodeOffset (pagination.bind Pagination.cursor) >>= fun offset =>
        database.ready context >>= fun _ =>
        (if isOversized filters then .error (.backend .statementTooLarge) else .ok ()) >>= fun _ =>
        database.tables.messageTable >>= fun table =>
        window (selectedRows table tenant (Column.columnOf sort.property.name) sort.direction
            (Condition.ofIndexed filters))
          (pagination.bind Pagination.pageSize?) offset >>= fun read =>
        pageOfRows read (pagination.bind Pagination.pageSize?) offset) := by
  have given := Condition.ofFilters_of_isSupported supported
  rw [answer, valid, given, ← admitted_of_ofFilters given]
  rfl

theorem upToKind_answer_of_not_isSupported (valid : Filter.validateAll filters = .ok ())
    (unsupported : ¬Condition.IsSupported filters) :
    upToKind (answer context tenant filters sort pagination database) =
      upToKind (decodeOffset (pagination.bind Pagination.cursor)) >>= fun _ =>
        .error .unsupportedProperty := by
  rcases Condition.ofFilters_of_not_isSupported unsupported with ⟨property, fails⟩
  rw [answer, valid, fails]
  cases decodeOffset (pagination.bind Pagination.cursor) <;> rfl

end Answers

/-- Valid filters stay valid in another order. -/
theorem validateAll_of_perm (same : filters.Perm others)
    (valid : Filter.validateAll filters = .ok ()) : Filter.validateAll others = .ok () := by
  rw [Filter.validateAll_eq_ok_iff] at valid ⊢
  exact fun filter member => valid filter (same.mem_iff.2 member)

theorem queriedAlike_of_perm (same : filters.Perm others)
    (alike : Filter.validateAll filters = .ok () →
      (Condition.IsSupported filters ↔ Condition.IsSupported others) ∧
        isOversized filters = isOversized others) :
    QueriedAlike filters others := by
  rw [queriedAlike_iff]
  intro context tenant sort pagination database
  cases valid : Filter.validateAll filters with
  | error problem =>
      cases validToo : Filter.validateAll others with
      | error other => rw [upToKind_answer_of_invalid valid, upToKind_answer_of_invalid validToo]
      | ok _ =>
          rw [validateAll_of_perm same.symm validToo] at valid
          cases valid
  | ok _ =>
      have validToo := validateAll_of_perm same valid
      rcases alike valid with ⟨supportedToo, oversizedToo⟩
      by_cases supported : Condition.IsSupported filters
      · rw [answer_of_isSupported valid supported, answer_of_isSupported validToo
          (supportedToo.1 supported), oversizedToo]
        simp only [selectedRows_of_selects (Condition.all_selects_of_perm same)]
      · rw [upToKind_answer_of_not_isSupported valid supported,
          upToKind_answer_of_not_isSupported validToo fun supported' =>
            supported (supportedToo.2 supported')]

/-- What a query answers on a database without messages. -/
theorem upToKind_answer_of_empty (valid : Filter.validateAll filters = .ok ())
    (supported : Condition.IsSupported filters) :
    upToKind (answer {} "" filters {} none {}) =
      if isOversized filters then .error .backend else .ok ⟨[], none⟩ := by
  have noRows (sortColumn : String) (direction : Direction) :
      selectedRows .empty "" sortColumn direction (Condition.ofIndexed filters) = [] := by
    have noRow : (OrderedMap.empty : OrderedMap (List String) MessageRow).toList.filterMap
        (select? "" sortColumn (Condition.ofIndexed filters)) = [] := rfl
    rw [selectedRows, noRow, List.mergeSort_nil]
    cases direction <;> rfl
  have table : ({} : TableDatabase).tables.messageTable = .ok .empty := rfl
  rw [answer_of_isSupported valid supported, table]
  simp only [ok_bind, noRows]
  cases isOversized filters <;> rfl

/-- Only the two ways in which their order matters make a difference between filters in different
orders. -/
theorem alike_of_queriedAlike (same : filters.Perm others) (alike : QueriedAlike filters others)
    (valid : Filter.validateAll filters = .ok ()) :
    (Condition.IsSupported filters ↔ Condition.IsSupported others) ∧
      isOversized filters = isOversized others := by
  have validToo := validateAll_of_perm same valid
  have answers := queriedAlike_iff.1 alike {} "" {} none {}
  by_cases supported : Condition.IsSupported filters <;>
    by_cases supportedToo : Condition.IsSupported others
  · rw [upToKind_answer_of_empty valid supported, upToKind_answer_of_empty validToo supportedToo]
      at answers
    refine ⟨iff_of_true supported supportedToo, ?_⟩
    cases oversized : isOversized filters <;> cases oversizedToo : isOversized others <;>
      simp_all
  · rw [upToKind_answer_of_empty valid supported,
      upToKind_answer_of_not_isSupported validToo supportedToo] at answers
    split at answers <;> cases answers
  · rw [upToKind_answer_of_not_isSupported valid supported,
      upToKind_answer_of_empty validToo supportedToo] at answers
    split at answers <;> cases answers
  · refine ⟨iff_of_false supported supportedToo, ?_⟩
    rcases Condition.ofFilters_of_not_isSupported supported with ⟨_, fails⟩
    rcases Condition.ofFilters_of_not_isSupported supportedToo with ⟨_, failsToo⟩
    rw [isOversized, isOversized, fails, failsToo]

/-- Filters in another order are queried alike in every state exactly if, where they are valid, both
orders are refused or neither for a property without a column, and for being too large.  Filters are
refused for such a property if one in front of the first empty filter names it, and so without an
empty filter if any does. -/
theorem queriedAlike_iff_of_perm (same : filters.Perm others) :
    (QueriedAlike filters others ↔
        (Filter.validateAll filters = .ok () →
          (Condition.IsSupported filters ↔ Condition.IsSupported others) ∧
            isOversized filters = isOversized others)) ∧
      ((∃ property, Condition.ofFilters filters = .error (.unsupportedProperty property)) ↔
        ∃ filter ∈ Condition.leading filters, ¬filter.IsIndexed) ∧
      ((∀ filter ∈ filters, filter.isEmpty = false) →
        ((∃ property, Condition.ofFilters filters = .error (.unsupportedProperty property)) ↔
          ∃ filter ∈ filters, ¬filter.IsIndexed)) := by
  refine ⟨⟨alike_of_queriedAlike same, queriedAlike_of_perm same⟩,
    Condition.ofFilters_eq_unsupported_iff, fun something => ?_⟩
  rw [Condition.ofFilters_eq_unsupported_iff, Condition.leading_eq_self something]

/-- A filter on a property without a column is refused in front of an empty filter, and not looked
at behind it. -/
theorem queriedAlike_iff_of_perm_of_unknown :
    let unknown : Filter := .ofList [("n", .equal (.integer 1))]
    [{}, unknown].Perm [unknown, {}] ∧
      Condition.ofFilters [{}, unknown] = .ok none ∧
      Condition.ofFilters [unknown, {}] = .error (.unsupportedProperty "n") ∧
      ¬QueriedAlike [{}, unknown] [unknown, {}] := by
  intro unknown
  have same : [{}, unknown].Perm [unknown, {}] := List.Perm.swap _ _ _
  have refused : Condition.ofFilters [unknown, {}] = .error (.unsupportedProperty "n") := rfl
  refine ⟨same, rfl, refused, fun alike => ?_⟩
  have supported : Condition.IsSupported [{}, unknown] := fun _ impossible => by cases impossible
  have supportedToo := ((queriedAlike_iff_of_perm same).1.1 alike rfl).1.1 supported
  rw [Condition.ofFilters_of_isSupported supportedToo] at refused
  cases refused

end MessageTable

end TenantStore
