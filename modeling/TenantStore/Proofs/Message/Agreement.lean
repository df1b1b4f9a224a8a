import Mathlib.Data.List.Basic
import Mathlib.Tactic.Common
import TenantStore.Proofs.Message.Runs
import TenantStore.Proofs.Table.Query

/-!
# Agreement of message stores

A message store in one ordered database, one in two, and one in a table answer all calls alike,
except for queries with valid filters whose condition is too large for a statement: only the table
refuses these.
-/

namespace TenantStore

namespace MessageCall

/-- Whether a call is made under live contexts, names only properties that have columns, and begins
without a cursor. -/
def IsRegular : MessageCall → Prop
  | .write written => written.context.isLive = true ∧ written.Puts Properties.AreIndexed
  | .find context _ _ => context.isLive = true
  | .pages contexts _ filters _ pagination =>
    (∀ context ∈ contexts, context.isLive = true) ∧ (∀ filter ∈ filters, filter.IsIndexed) ∧
      pagination.bind Pagination.cursor = none

/-- Whether a call is a query with valid filters whose condition is too large for a statement. -/
def isOversized : MessageCall → Bool
  | .pages contexts _ filters _ _ =>
    !contexts.isEmpty && (Filter.validateAll filters).isOk && MessageTable.isOversized filters
  | _ => false

theorem isOversized_pages_iff {context : Context} {contexts : List Context} {tenant : String}
    {filters : List Filter} {sort : Option MessageSort} {pagination : Option Pagination} :
    (pages (context :: contexts) tenant filters sort pagination).isOversized = true ↔
      Filter.validateAll filters = .ok () ∧ MessageTable.isOversized filters = true := by
  unfold isOversized
  cases checked : Filter.validateAll filters <;> simp [checked, Except.isOk, Except.toBool]

/-- What the table answers where an ordered database answers this. -/
def inTable (call : MessageCall) (answer : MessageAnswer) : MessageAnswer :=
  if call.isOversized then .shown [.error (.backend .statementTooLarge)] else answer

end MessageCall

namespace MessageStore

variable {handles : MessageHandles} {catalog : MessageCatalog}

theorem answersPages (holds : handles.Holds catalog)
    (bounded : catalog.size ≤ MessageTable.largestOffset) (tenant : String) (filters : List Filter)
    (sort : Option MessageSort) (size? : Option Nat) :
    backend.AnswersPages handles catalog tenant filters sort size? fun cursor? position? =>
      cursor?.mapM Cursor.decode = .ok position? := by
  intro context pagination position? live sized decodes
  refine ⟨Cursor.encode, fun position _ => Cursor.mapM_decode_encode position, ?_⟩
  subst sized
  cases valid : Filter.validateAll filters with
  | error problem => exact query_on_of_invalid valid context tenant sort pagination handles
  | ok _ =>
      refine on_query holds live valid decodes fun size _ => Or.inr ?_
      have listed := catalog.items.length_listed_le tenant filters (sort.getD {}).property.name
        (sort.getD {}).direction position?
      have small : MessageTable.largestOffset ≤ largestCount := by decide
      rw [MessageCatalog.size_items] at listed
      omega

/-- Ordered databases answer as the catalog does. -/
theorem simulates : backend.Simulates MessageHandles.Holds (fun _ answer => answer)
    MessageCall.IsRegular MessageTable.largestOffset := by
  intro handles catalog call held regular bounded
  cases call with
  | write written =>
      exact keeps.perform_write held regular.1 written.puts_true
  | find context tenant identifier =>
      exact ⟨handles, keeps.perform_find held regular tenant identifier, held⟩
  | pages contexts tenant filters sort pagination =>
      rcases regular with ⟨live, _, noCursor⟩
      have pages := (answersPages held bounded tenant filters sort _).pagesFrom_eq live rfl
        (by rw [noCursor]; rfl : (pagination.bind Pagination.cursor).mapM Cursor.decode = .ok none)
      refine ⟨handles, ?_, held⟩
      rw [MessageBackend.perform, pages]
      rfl

end MessageStore

namespace MessageTable

/-- The message store in a table. -/
def backend : MessageBackend TableDatabase := ⟨put, delete, clear, find?, query⟩

theorem keeps : backend.Keeps TableDatabase.Holds Properties.AreIndexed where
  put_of_isEmpty := put_on_of_isEmpty
  put live _ _ held tenant message _ indexable known :=
    on_put live held tenant message indexable known
  delete_of_unreadable := delete_on_of_unreadable
  delete live _ _ held tenant _ _ parses := on_delete live held tenant parses
  clear live _ _ held := on_clear live held
  find?_of_unreadable := find?_on_of_unreadable
  find? live _ _ held tenant _ _ parses := on_find? live held tenant parses

variable {database : TableDatabase} {catalog : MessageCatalog} {filters : List Filter}

/-- A cursor counts the listed items that a page leaves out. -/
theorem answersPages (holds : database.Holds catalog) (bounded : catalog.size ≤ largestOffset)
    (indexed : ∀ filter ∈ filters, filter.IsIndexed)
    (small : Filter.validateAll filters = .ok () → isOversized filters = false) (tenant : String)
    (sort : Option MessageSort) (size? : Option Nat) :
    backend.AnswersPages database catalog tenant filters sort size? fun cursor? position? =>
      let listed := catalog.items.listed tenant filters (sort.getD {}).property.name
        (sort.getD {}).direction
      ∃ offset, decodeOffset cursor? = .ok offset ∧ offset ≤ (listed none).length ∧
        listed position? = (listed none).drop offset := by
  intro context pagination position? live sized stands
  subst sized
  rcases stands with ⟨offset, counts, inside, begins⟩
  refine ⟨fun _ =>
    toString (offset + (catalog.items.slice tenant filters (sort.getD {}).property.name
      (sort.getD {}).direction (pagination.bind Pagination.pageSize?) position?).items.length),
    ?_, ?_⟩
  · intro position goesOn
    have shown := catalog.items.length_slice_le tenant filters (sort.getD {}).property.name
      (sort.getD {}).direction (pagination.bind Pagination.pageSize?) position?
    have listed := catalog.items.length_listed_le tenant filters (sort.getD {}).property.name
      (sort.getD {}).direction none
    have numbers : largestOffset ≤ largestCount := by decide
    rw [begins, List.length_drop] at shown
    rw [MessageCatalog.size_items] at listed
    exact ⟨_, decodeOffset_toString (by omega), by omega, ItemCatalog.listed_next_eq_drop
      begins goesOn⟩
  · cases valid : Filter.validateAll filters with
    | error problem => exact query_on_of_invalid valid context tenant sort pagination database
    | ok _ =>
        have listed := catalog.items.length_listed_le tenant filters (sort.getD {}).property.name
          (sort.getD {}).direction none
        rw [MessageCatalog.size_items] at listed
        exact on_query live holds valid indexed counts (small valid) begins inside (by omega)

/-- The pages of a query are those of the catalog, unless the query is too large. -/
theorem perform_pages (holds : database.Holds catalog) (bounded : catalog.size ≤ largestOffset)
    {contexts : List Context} {tenant : String} {sort : Option MessageSort}
    {pagination : Option Pagination}
    (regular : (MessageCall.pages contexts tenant filters sort pagination).IsRegular) :
    backend.perform database (.pages contexts tenant filters sort pagination) =
      (MessageCall.inTable (.pages contexts tenant filters sort pagination)
        (catalog.answer (.pages contexts tenant filters sort pagination)), database) := by
  rcases regular with ⟨live, indexed, noCursor⟩
  have counts : decodeOffset (pagination.bind Pagination.cursor) = .ok 0 := by rw [noCursor]; rfl
  cases contexts with
  | nil => rfl
  | cons context contexts =>
      rw [MessageBackend.perform, MessageCall.inTable]
      split
      · rename_i oversized
        rcases MessageCall.isOversized_pages_iff.1 oversized with ⟨valid, tooLarge⟩
        have refused : (backend.query context tenant filters sort pagination).on database =
            (.error (.backend .statementTooLarge), database) :=
          query_on_of_isOversized (live context List.mem_cons_self) holds valid indexed
          counts tooLarge
        rw [MessageBackend.pagesFrom, refused]
        rfl
      · rename_i small
        have fits (valid : Filter.validateAll filters = .ok ()) : isOversized filters = false :=
          Bool.eq_false_iff.2 fun tooLarge =>
            small (MessageCall.isOversized_pages_iff.2 ⟨valid, tooLarge⟩)
        have pages := (answersPages holds bounded indexed fits tenant sort _).pagesFrom_eq live rfl
          ⟨0, counts, Nat.zero_le _, rfl⟩
        rw [pages]
        rfl

/-- A table answers as the catalog does, except that it refuses what is too large for a
statement. -/
theorem simulates : backend.Simulates TableDatabase.Holds MessageCall.inTable
    MessageCall.IsRegular largestOffset := by
  intro database catalog call held regular bounded
  cases call with
  | write written => exact keeps.perform_write held regular.1 regular.2
  | find context tenant identifier =>
      exact ⟨database, keeps.perform_find held regular tenant identifier, held⟩
  | pages contexts tenant filters sort pagination =>
      exact ⟨database, perform_pages held bounded regular, held⟩

end MessageTable

namespace MessageCatalog

variable {catalog : MessageCatalog} {tenant : String}

theorem load_eq_error {stored : StoredMessage} {problem : StoreError}
    (failed : stored.load = .error problem) : problem = .serialization .malformedMessage := by
  unfold StoredMessage.load Message.decode at failed
  split at failed
  · cases failed
  · cases failed
    rfl

/-- Messages that cannot be read back are malformed. -/
theorem messages_eq_error {items : List IndexedItem} {problem : StoreError}
    (failed : catalog.messages tenant items = .error problem) :
    problem = .serialization .malformedMessage := by
  unfold messages at failed
  generalize items.filterMap (fun item => catalog.find? [tenant, item.identifier]) =
    stored at failed
  induction stored with
  | nil => cases failed
  | cons first rest ih =>
      rw [List.mapM_cons] at failed
      cases loaded : first.load with
      | error fault =>
          rw [loaded] at failed
          cases failed
          exact load_eq_error loaded
      | ok message =>
          cases others : rest.mapM StoredMessage.load with
          | error fault =>
              rw [loaded, others] at failed
              cases failed
              exact ih others
          | ok messages =>
              rw [loaded, others] at failed
              cases failed

/-- No catalog gives the answer by which a table refuses a query. -/
theorem inTable_answer_eq_iff (catalog : MessageCatalog) (call : MessageCall) :
    call.inTable (catalog.answer call) = catalog.answer call ↔ call.isOversized = false := by
  rw [MessageCall.inTable]
  cases oversized : call.isOversized with
  | false => exact iff_of_true rfl rfl
  | true =>
      refine iff_of_false ?_ (by simp)
      intro same
      rw [if_pos rfl] at same
      cases call with
      | write written => cases oversized
      | find context tenant identifier => cases oversized
      | pages contexts tenant filters sort pagination =>
          cases contexts with
          | nil => cases oversized
          | cons context contexts =>
              rw [answer, List.length_cons, pagesFrom, MessageAnswer.shown.injEq] at same
              split at same
              · rename_i problem failed
                simp only [List.cons.injEq, Except.error.injEq, and_true] at same
                have valid := (MessageCall.isOversized_pages_iff.1 oversized).1
                rw [valid] at failed
                rw [messages_eq_error failed] at same
                cases same
              · simp at same

/-- The table's answers are those of the catalog exactly if no call is too large for it. -/
theorem zipWith_inTable_eq_iff (catalog : MessageCatalog) (calls : List MessageCall) :
    List.zipWith MessageCall.inTable calls (catalog.answers calls) = catalog.answers calls ↔
      ∀ call ∈ calls, call.isOversized = false := by
  induction calls generalizing catalog with
  | nil => exact iff_of_true rfl fun _ impossible => by cases impossible
  | cons call calls ih =>
      rw [answers, List.zipWith_cons_cons, List.cons.injEq, inTable_answer_eq_iff, ih,
        List.forall_mem_cons]

theorem zipWith_answers (catalog : MessageCatalog) (calls : List MessageCall) :
    List.zipWith (fun _ answer => answer) calls (catalog.answers calls) =
      catalog.answers calls := by
  induction calls generalizing catalog with
  | nil => rfl
  | cons call calls ih => rw [answers, List.zipWith_cons_cons, ih]

end MessageCatalog

/-- Stores that were empty answer all calls alike, wherever they keep their messages, except that a
table refuses the queries that are too large for a statement. -/
theorem MessageCall.answers_agree {database blocks index : Database} {table : TableDatabase}
    (shared : (MessageHandles.shared database).IsNew)
    (separate : (MessageHandles.separate blocks index).IsNew) (isNew : table.IsNew)
    {calls : List MessageCall} (regular : ∀ call ∈ calls, call.IsRegular)
    (bounded : calls.countP isPut ≤ MessageTable.largestOffset) :
    let answers := MessageStore.backend.answers (.shared database) calls
    MessageStore.backend.answers (.separate blocks index) calls = answers ∧
      MessageTable.backend.answers table calls = List.zipWith inTable calls answers ∧
        (MessageTable.backend.answers table calls = answers ↔
          ∀ call ∈ calls, call.isOversized = false) := by
  have small : OrderedMap.size (.empty : MessageCatalog) + calls.countP isPut ≤
      MessageTable.largestOffset := by
    rwa [OrderedMap.size_empty, Nat.zero_add]
  have inShared := MessageStore.simulates.answers_eq shared.holds regular small
  have inSeparate := MessageStore.simulates.answers_eq separate.holds regular small
  have inTable := MessageTable.simulates.answers_eq isNew.holds regular small
  rw [MessageCatalog.zipWith_answers] at inShared inSeparate
  refine ⟨inSeparate.trans inShared.symm, ?_, ?_⟩
  · rw [inTable, inShared]
  · rw [inTable, inShared]
    exact MessageCatalog.zipWith_inTable_eq_iff _ _

/-- A query with one filter more than a statement can nest is answered by ordered databases only. -/
theorem MessageCall.answers_agree_of_manyFilters :
    let message : Json := .object [("kind", .text "note")]
    let properties : Properties :=
      .ofList [("messageTimestamp", .text "2024-01-01"), ("published", .boolean true)]
    let filter : Filter := .ofList [("published", .equal (.boolean true))]
    let calls : List MessageCall :=
      [.write (.put {} "alice" message properties),
       .pages [{}, {}] "alice" (List.replicate 999 filter) none (some ⟨some 1, none⟩)]
    (MessageHandles.shared {}).IsNew ∧ (MessageHandles.separate {} {}).IsNew ∧
      TableDatabase.IsNew {} ∧ (∀ call ∈ calls, call.IsRegular) ∧
        calls.countP isPut ≤ MessageTable.largestOffset ∧
          MessageStore.backend.answers (.separate {} {}) calls =
              MessageStore.backend.answers (.shared {}) calls ∧
            MessageTable.backend.answers {} calls ≠
              MessageStore.backend.answers (.shared {}) calls := by
  intro message properties filter calls
  have shared : (MessageHandles.shared {}).IsNew := ⟨rfl, rfl, rfl, rfl⟩
  have separate : (MessageHandles.separate {} {}).IsNew := ⟨rfl, rfl, rfl, rfl⟩
  have isNew : TableDatabase.IsNew {} := ⟨rfl, rfl⟩
  have isFilter : ∀ other ∈ List.replicate 999 filter, other = filter :=
    fun _ member => List.eq_of_mem_replicate member
  have known : properties.AreIndexed := by
    unfold Properties.AreIndexed
    decide
  have filterIndexed : filter.IsIndexed := by
    unfold Filter.IsIndexed
    decide
  have indexed : ∀ other ∈ List.replicate 999 filter, other.IsIndexed := by
    intro other member
    rw [isFilter other member]
    exact filterIndexed
  have valid : Filter.validateAll (List.replicate 999 filter) = .ok () := by
    rw [Filter.validateAll_eq_ok_iff]
    intro other member
    rw [isFilter other member]
    exact Filter.forM_eq_ok_iff.1 (rfl : filter.validate = .ok ())
  have something : ∀ other ∈ List.replicate 999 filter, other.isEmpty = false := by
    intro other member
    rw [isFilter other member]
    rfl
  have tooLarge : MessageTable.isOversized (List.replicate 999 filter) = true :=
    MessageTable.isOversized_of_length indexed valid something
      (by rw [List.length_replicate]; decide)
  have regular : ∀ call ∈ calls, call.IsRegular := by
    intro call member
    simp only [calls, List.mem_cons, List.not_mem_nil, or_false] at member
    rcases member with rfl | rfl
    · exact ⟨rfl, known⟩
    · refine ⟨?_, indexed, rfl⟩
      decide
  have bounded : calls.countP isPut ≤ MessageTable.largestOffset := by decide
  rcases answers_agree shared separate isNew regular bounded with ⟨alike, _, exactly⟩
  refine ⟨shared, separate, isNew, regular, bounded, alike, fun same => ?_⟩
  have small := exactly.1 same _ (List.mem_cons_of_mem _ List.mem_cons_self)
  rw [isOversized_pages_iff.2 ⟨valid, tooLarge⟩] at small
  cases small

end TenantStore
