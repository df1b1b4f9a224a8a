import Mathlib.Data.List.Basic
import Mathlib.Tactic.Common
import TenantStore.Proofs.Json.RoundTrip
import TenantStore.Proofs.Message.Query
import TenantStore.Proofs.Table.Operations

/-!
# Queries of the message table

A page of the table begins after as many rows as its cursor counts, where a page of the index begins
beyond a position.  Where both leave the same items out, both return the same messages and tell
alike whether another page follows, and leave the same items out again on that page.
-/

namespace TenantStore

/-- A page of a list that is at most as long as its size, and whether the list goes on. -/
def pageOfList {α : Type} (size? : Option Nat) (rest : List α) : List α × Bool :=
  match size? with
  | none => (rest, false)
  | some size => (rest.take size, decide (size < rest.length))

theorem pageOfList_map {α β : Type} (change : α → β) (size? : Option Nat) (rest : List α) :
    pageOfList size? (rest.map change) =
      ((pageOfList size? rest).1.map change, (pageOfList size? rest).2) := by
  cases size? <;> simp [pageOfList]

namespace ItemCatalog

theorem slice_eq_pageOfList (catalog : ItemCatalog) (tenant : String) (filters : List Filter)
    (property : String) (direction : Direction) (position? : Option Cursor) {size? : Option Nat}
    (positive : ∀ size, size? = some size → 0 < size) :
    (catalog.slice tenant filters property direction size? position?).items =
        (pageOfList size? (catalog.listed tenant filters property direction position?)).1 ∧
      (catalog.slice tenant filters property direction size? position?).next.isSome =
        (pageOfList size? (catalog.listed tenant filters property direction position?)).2 := by
  cases size? with
  | none => exact ⟨rfl, rfl⟩
  | some size =>
      cases next : (catalog.slice tenant filters property direction (some size) position?).next with
      | none =>
          have all := items_slice_of_ends (positive size rfl) next
          have ends :
              ¬size < (catalog.listed tenant filters property direction position?).length := by
            intro goesOn
            have cut := congrArg List.length all
            simp only [slice, if_pos goesOn, List.length_take] at cut
            omega
          simp [all, pageOfList, ends, List.take_of_length_le (Nat.le_of_not_lt ends)]
      | some position =>
          rcases listed_eq_slice_append next with ⟨full, parts, more, _⟩
          have rest := List.length_pos_iff.2 more
          rw [parts, pageOfList]
          refine ⟨(List.take_left' full).symm, ?_⟩
          simp only [List.length_append, Option.isSome_some]
          exact (decide_eq_true (by omega)).symm

/-- Where a slice goes on, what follows it is listed beyond the next position. -/
theorem listed_next_eq_drop {catalog : ItemCatalog} {tenant : String} {filters : List Filter}
    {property : String} {direction : Direction} {size? : Option Nat} {position? : Option Cursor}
    {position : Cursor} {offset : Nat}
    (begins : catalog.listed tenant filters property direction position? =
      (catalog.listed tenant filters property direction none).drop offset)
    (goesOn : (catalog.slice tenant filters property direction size? position?).next =
      some position) :
    catalog.listed tenant filters property direction (some position) =
      (catalog.listed tenant filters property direction none).drop (offset +
        (catalog.slice tenant filters property direction size? position?).items.length) := by
  cases size? with
  | none => cases goesOn
  | some size =>
      rcases listed_eq_slice_append goesOn with ⟨_, parts, _⟩
      rw [← List.drop_drop, ← begins]
      have rest := congrArg (List.drop
        (catalog.slice tenant filters property direction (some size) position?).items.length) parts
      rw [List.drop_left' rfl] at rest
      exact rest.symm

end ItemCatalog

namespace MessageTable

/-- A cursor stands for the number that it was written from. -/
theorem decodeOffset_toString {offset : Nat} (small : offset ≤ largestCount) :
    decodeOffset (some (toString offset)) = .ok offset := by
  have digits : (toString offset).toList = Nat.toDigits 10 offset := by
    rw [Nat.toString_eq_repr, Nat.repr, String.toList_ofList]
  have allDigits : (Nat.toDigits 10 offset).all Char.isDigit = true :=
    List.all_eq_true.2 fun digit member => Json.isDigit_of_mem member
  have unsigned : ∀ rest, Nat.toDigits 10 offset ≠ '+' :: rest := by
    intro rest written
    have isDigit : Char.isDigit '+' = true := Json.isDigit_of_mem (written ▸ List.mem_cons_self)
    cases isDigit
  have nonempty : (Nat.toDigits 10 offset).isEmpty = false := by
    rw [List.isEmpty_eq_false_iff]
    exact Nat.toDigits_ne_nil
  have read : offsetOf? (toString offset) = some offset := by
    unfold offsetOf?
    rw [digits]
    split
    · rename_i rest written
      exact absurd written (unsigned rest)
    · simp [nonempty, allDigits, Json.decimalValue_toDigits, small]
  rw [decodeOffset, read]

/-- A page of rows that are not more than a statement can skip. -/
theorem pageRows_window (size? : Option Nat) {rows : List Selected} {offset : Nat}
    (bounded : rows.length ≤ largestOffset) (inside : offset ≤ rows.length) :
    ∃ read, window rows size? offset = .ok read ∧
      pageRows read size? offset =
        ((pageOfList size? (rows.drop offset)).1,
          if (pageOfList size? (rows.drop offset)).2 then
            some (toString (offset + (pageOfList size? (rows.drop offset)).1.length))
          else none) := by
  have allowed : ¬largestOffset < offset := by omega
  unfold window pageOfList
  rw [if_neg allowed]
  cases size? with
  | none => exact ⟨_, rfl, rfl⟩
  | some size =>
      have rest : (rows.drop offset).length ≤ largestOffset := by
        rw [List.length_drop]
        omega
      generalize rows.drop offset = remaining at rest ⊢
      by_cases goesOn : size < remaining.length
      · have enough : min (size + 1) largestOffset = size + 1 := by omega
        refine ⟨remaining.take (size + 1), ?_, ?_⟩
        · simp only [enough]
          rw [if_neg (by omega)]
        · have length : (remaining.take (size + 1)).length = size + 1 := by
            rw [List.length_take]
            omega
          have kept : (remaining.take (size + 1)).take size = remaining.take size := by
            rw [List.take_take, Nat.min_eq_left (Nat.le_succ size)]
          have full : (remaining.take size).length = size := by
            rw [List.length_take]
            omega
          simp only [pageRows, length, Nat.lt_succ_self, if_true, kept, goesOn, decide_true, full]
      · have whole : remaining.take (min (size + 1) largestOffset) = remaining :=
          List.take_of_length_le (by omega)
        have kept : remaining.take size = remaining := List.take_of_length_le (by omega)
        refine ⟨remaining, ?_, ?_⟩
        · simp only [whole, ite_self]
        · simp only [pageRows, goesOn, if_false, kept, decide_false, Bool.false_eq_true]

/-- Whether the condition of filters is too large for the statement that selects rows. -/
def isOversized (filters : List Filter) : Bool :=
  match Condition.ofFilters filters with
  | .ok (some condition) => !condition.fits 3 1
  | _ => false

theorem admitted_of_ofFilters {filters : List Filter} {condition? : Option Condition}
    (given : Condition.ofFilters filters = .ok condition?) :
    admitted condition? =
      if isOversized filters then .error (.backend .statementTooLarge) else .ok () := by
  rw [isOversized, given, admitted]
  cases condition? with
  | none => rfl
  | some condition => cases fits : condition.fits 3 1 <;> simp [fits]

theorem admitted_ofIndexed {filters : List Filter}
    (indexed : ∀ filter ∈ filters, filter.IsIndexed) :
    admitted (Condition.ofIndexed filters) =
      if isOversized filters then .error (.backend .statementTooLarge) else .ok () :=
  admitted_of_ofFilters (Condition.ofFilters_eq_ok indexed)

/-- More filters that all say something than a statement can nest are too large for it. -/
theorem isOversized_of_length {filters : List Filter}
    (indexed : ∀ filter ∈ filters, filter.IsIndexed) (valid : Filter.validateAll filters = .ok ())
    (something : ∀ filter ∈ filters, filter.isEmpty = false)
    (many : Condition.greatestDepth ≤ filters.length + 1) : isOversized filters = true := by
  have noEmpty : filters.any OrderedMap.isEmpty = false := by
    rw [List.any_eq_false]
    exact fun filter member => by rw [something filter member]; decide
  have someFilter : filters.isEmpty = false := by
    cases filters with
    | nil => exact absurd many (by decide)
    | cons filter filters => rfl
  have isCondition : Condition.ofIndexed filters = some ⟨filters.map Condition.indexedTerms⟩ := by
    rw [Condition.ofIndexed, someFilter, noEmpty]
    rfl
  have deep := Condition.length_lt_depth isCondition valid
  rw [isOversized, Condition.ofFilters_eq_ok indexed, isCondition]
  simp only [Condition.fits, Bool.not_eq_true', Bool.and_eq_false_iff, decide_eq_false_iff_not]
  omega

/-- The page of the rows that a query has read. -/
def pageOfRows (read : List Selected) (size? : Option Nat) (offset : Nat) :
    Except StoreError MessagePage :=
  ((pageRows read size? offset).1.mapM fun selected => decodeRow selected.row).map fun messages =>
    ⟨messages, (pageRows read size? offset).2⟩

/-- What a query answers on a database. -/
def answer (context : Context) (tenant : String) (filters : List Filter) (sort : MessageSort)
    (pagination : Option Pagination) (database : TableDatabase) :
    Except StoreError MessagePage := do
  Filter.validateAll filters
  let offset ← decodeOffset (pagination.bind Pagination.cursor)
  let condition ← Condition.ofFilters filters
  database.ready context
  admitted condition
  let table ← database.tables.messageTable
  let read ← window (selectedRows table tenant (Column.columnOf sort.property.name) sort.direction
    condition) (pagination.bind Pagination.pageSize?) offset
  pageOfRows read (pagination.bind Pagination.pageSize?) offset

/-- A query leaves the database as it is. -/
theorem query_on (context : Context) (tenant : String) (filters : List Filter)
    (sort : Option MessageSort) (pagination : Option Pagination) (database : TableDatabase) :
    (query context tenant filters sort pagination).on database =
      (answer context tenant filters (sort.getD {}) pagination database, database) := by
  have sortColumn :=
    Column.ofProperty_of_isIndexed (Column.isIndexed_sortProperty (sort.getD {}).property)
  simp only [query, answer, StoreM.on_bind, StoreM.on_ofExcept, sortColumn]
  cases Filter.validateAll filters with
  | error problem => rfl
  | ok _ =>
      cases decodeOffset (pagination.bind Pagination.cursor) with
      | error problem => rfl
      | ok offset =>
          cases Condition.ofFilters filters with
          | error problem => rfl
          | ok condition =>
              simp only [TableDatabase.read, StoreM.on_ofStep, bind, Except.bind]
              cases database.ready context with
              | error problem => rfl
              | ok _ =>
                  cases admitted condition with
                  | error problem => rfl
                  | ok allowed =>
                      cases database.tables.messageTable with
                      | error problem => rfl
                      | ok table =>
                          simp only
                          cases window (selectedRows table tenant _ _ _) _ offset with
                          | error problem => rfl
                          | ok read =>
                              simp only [pageOfRows]
                              cases (pageRows read _ offset).1.mapM fun selected =>
                                decodeRow selected.row <;>
                                  rfl

theorem query_on_of_invalid {filters : List Filter} {problem : StoreError}
    (invalid : Filter.validateAll filters = .error problem) (context : Context) (tenant : String)
    (sort : Option MessageSort) (pagination : Option Pagination) (database : TableDatabase) :
    (query context tenant filters sort pagination).on database = (.error problem, database) := by
  rw [query_on, answer, invalid]
  rfl

section Admitted

variable {database : TableDatabase} {catalog : MessageCatalog} {context : Context} {tenant : String}
  {filters : List Filter} {sort : Option MessageSort} {pagination : Option Pagination}
    {offset : Nat}

/-- The messages of the rows of stored items. -/
theorem mapM_decodeRow {property : String} {items : List IndexedItem}
    (stored : ∀ item ∈ items, ∃ stored, catalog.find? [tenant, item.identifier] = some stored) :
    ((items.map (catalog.selected tenant property)).mapM fun selected => decodeRow selected.row) =
      catalog.messages tenant items := by
  unfold MessageCatalog.messages
  induction items with
  | nil => rfl
  | cons item items ih =>
      rcases stored item List.mem_cons_self with ⟨first, found⟩
      have row : (catalog.selected tenant property item).row = first.row := by
        simp [MessageCatalog.selected, MessageCatalog.rowOf, found]
      rw [List.map_cons, List.mapM_cons, List.filterMap_cons, found, List.mapM_cons, row,
        ih fun later member => stored later (List.mem_cons_of_mem _ member)]
      rfl

/-- The page of the rows of listed items that leaves the same items out as a position is a slice. -/
theorem pageOfRows_window {property : String} {direction : Direction} {size? : Option Nat}
    {position? : Option Cursor} (positive : ∀ size, size? = some size → 0 < size)
    (begins : catalog.items.listed tenant filters property direction position? =
      (catalog.items.listed tenant filters property direction none).drop offset)
    (inside : offset ≤ (catalog.items.listed tenant filters property direction none).length)
    (bounded : (catalog.items.listed tenant filters property direction none).length ≤
      largestOffset) :
    (window ((catalog.items.listed tenant filters property direction none).map
        (catalog.selected tenant property)) size? offset >>= fun read =>
      pageOfRows read size? offset) =
        let slice := catalog.items.slice tenant filters property direction size? position?
        (catalog.messages tenant slice.items).map fun messages =>
          ⟨messages, slice.next.map fun _ => toString (offset + slice.items.length)⟩ := by
  rcases catalog.items.slice_eq_pageOfList tenant filters property direction position? positive
    with ⟨isItems, isNext⟩
  rw [← List.length_map (f := catalog.selected tenant property)] at inside bounded
  rcases pageRows_window size? bounded inside with ⟨read, isRead, isPage⟩
  rw [← List.map_drop, ← begins, pageOfList_map, ← isItems, ← isNext] at isPage
  have stored (item : IndexedItem) (member : item ∈
      (catalog.items.slice tenant filters property direction size? position?).items) :
      ∃ stored, catalog.find? [tenant, item.identifier] = some stored := by
    have listed :=
      (ItemCatalog.mem_listed_iff_isBeyond.1 (ItemCatalog.mem_listed_of_mem_slice member)).1
    rcases MessageCatalog.mem_listed_iff.1 listed with ⟨stored, _, found, _⟩
    exact ⟨stored, found⟩
  simp only [bind, Except.bind, isRead, pageOfRows, isPage, mapM_decodeRow stored, List.length_map]
  cases (catalog.items.slice tenant filters property direction size? position?).next <;> rfl

variable (live : context.isLive = true) (holds : database.Holds catalog)
  (valid : Filter.validateAll filters = .ok ()) (indexed : ∀ filter ∈ filters, filter.IsIndexed)
  (counts : decodeOffset (pagination.bind Pagination.cursor) = .ok offset)
include live holds valid indexed counts

/-- A query answers with the page of the rows that its statement reads. -/
theorem on_query_eq_pageOfRows :
    (query context tenant filters sort pagination).on database =
      ((admitted (Condition.ofIndexed filters) >>= fun _ =>
          window (selectedRows catalog.table tenant (Column.columnOf (sort.getD {}).property.name)
              (sort.getD {}).direction (Condition.ofIndexed filters))
            (pagination.bind Pagination.pageSize?) offset) >>= fun read =>
        pageOfRows read (pagination.bind Pagination.pageSize?) offset, database) := by
  rw [query_on, answer, valid, counts, Condition.ofFilters_eq_ok indexed, ready_eq_ok live holds,
    holds.messageTable]
  simp only [ok_bind, bind_assoc]

/-- Filters that are too large for a statement are refused. -/
theorem query_on_of_isOversized (oversized : isOversized filters = true) :
    (query context tenant filters sort pagination).on database =
      (.error (.backend .statementTooLarge), database) := by
  rw [on_query_eq_pageOfRows live holds valid indexed counts, admitted_ofIndexed indexed, oversized]
  rfl

/-- A page of the table that leaves the same items out as one of the index is a slice of the
listing. -/
theorem on_query (small : isOversized filters = false) {position? : Option Cursor}
    (begins : catalog.items.listed tenant filters (sort.getD {}).property.name
      (sort.getD {}).direction
        position? =
      (catalog.items.listed tenant filters (sort.getD {}).property.name (sort.getD {}).direction
        none).drop offset)
    (inside : offset ≤ (catalog.items.listed tenant filters (sort.getD {}).property.name
      (sort.getD {}).direction none).length)
    (bounded : (catalog.items.listed tenant filters (sort.getD {}).property.name
      (sort.getD {}).direction none).length ≤ largestOffset) :
    (query context tenant filters sort pagination).on database =
      let slice := catalog.items.slice tenant filters (sort.getD {}).property.name
        (sort.getD {}).direction (pagination.bind Pagination.pageSize?) position?
      ((catalog.messages tenant slice.items).map fun messages =>
        ⟨messages, slice.next.map fun _ => toString (offset + slice.items.length)⟩, database) := by
  have rows := selectedRows_eq holds.indexed
    (Column.isIndexed_sortProperty (sort.getD {}).property) indexed valid tenant
    (sort.getD {}).direction
  have positive (size : Nat) (sized : pagination.bind Pagination.pageSize? = some size) :
      0 < size := by
    rcases Option.bind_eq_some_iff.1 sized with ⟨page, _, isSize⟩
    simpa using (Option.filter_eq_some_iff.1 isSize).2
  rw [on_query_eq_pageOfRows live holds valid indexed counts, admitted_ofIndexed indexed,
    small, rows]
  exact congrArg (·, database) (pageOfRows_window positive begins inside bounded)

end Admitted

end MessageTable

end TenantStore
