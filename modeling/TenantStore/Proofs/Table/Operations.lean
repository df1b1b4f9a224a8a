import Mathlib.Data.List.Basic
import Mathlib.Tactic.Common
import TenantStore.Proofs.Message.Operations
import TenantStore.Proofs.Table.Selection

/-!
# The operations on the message table

On an open database whose message table holds a catalog, a put binds the row of the message, a
delete unbinds its identifier, a clear leaves no row, and a query reads the rows of a slice of the
listing.
-/

namespace TenantStore

/-- An open database whose message table holds a catalog, all properties of which have columns. -/
structure TableDatabase.Holds (database : TableDatabase) (catalog : MessageCatalog) : Prop where
  isOpen : database.isOpen = true
  messages : database.tables.messages = some catalog.table
  indexed : catalog.IsIndexed

/-- A database that is open and holds no messages. -/
structure TableDatabase.IsNew (database : TableDatabase) : Prop where
  isOpen : database.isOpen = true
  noMessages : database.tables.messages = some .empty

namespace MessageCatalog.IsIndexed

variable {catalog : MessageCatalog}

theorem empty : IsIndexed .empty := by
  intro key stored found
  cases found

theorem insert (indexed : catalog.IsIndexed) (key : List String) (message : Json)
    {properties : Properties} (known : properties.AreIndexed) :
    IsIndexed (catalog.insert key (.of message properties)) := by
  intro other stored found
  rw [OrderedMap.find?_insert] at found
  split at found
  · cases found
    exact known
  · exact indexed other stored found

theorem erase (indexed : catalog.IsIndexed) (key : List String) :
    IsIndexed (catalog.erase key) := by
  intro other stored found
  rw [OrderedMap.find?_erase] at found
  split at found
  · cases found
  · exact indexed other stored found

end MessageCatalog.IsIndexed

theorem TableDatabase.IsNew.holds {database : TableDatabase} (isNew : database.IsNew) :
    database.Holds .empty :=
  ⟨isNew.isOpen, isNew.noMessages, .empty⟩

theorem TableDatabase.Holds.messageTable {database : TableDatabase} {catalog : MessageCatalog}
    (holds : database.Holds catalog) : database.tables.messageTable = .ok catalog.table := by
  rw [Tables.messageTable, holds.messages]
  rfl

namespace MessageTable

variable {database : TableDatabase} {catalog : MessageCatalog} {context : Context}

theorem put_on_of_isEmpty (live : context.isLive = true) (tenant : String) (message : Json)
    {properties : Properties} (nothing : properties.isEmpty = true) (database : TableDatabase) :
    (put context tenant message properties).on database = (.error .emptyIndexSet, database) := by
  rw [put, StoreM.on_bind, StoreM.on_ofExcept, context.check_eq_ok_iff.2 live, nothing]
  rfl

theorem find?_on_of_unreadable {identifier : String} {problem : StoreError}
    (unreadable : ContentId.parse identifier = .error problem) (context : Context) (tenant : String)
    (database : TableDatabase) :
    (find? context tenant identifier).on database = (.error problem, database) := by
  rw [find?, unreadable, StoreM.on_bind, StoreM.on_ofExcept]

theorem delete_on_of_unreadable {identifier : String} {problem : StoreError}
    (unreadable : ContentId.parse identifier = .error problem) (context : Context) (tenant : String)
    (database : TableDatabase) :
    (delete context tenant identifier).on database = (.error problem, database) := by
  rw [delete, unreadable, StoreM.on_bind, StoreM.on_ofExcept]

section Admitted

variable (live : context.isLive = true) (holds : database.Holds catalog)
include live holds

theorem ready_eq_ok : database.ready context = .ok () := by
  rw [TableDatabase.ready, context.check_eq_ok_iff.2 live, holds.isOpen]
  rfl

/-- A statement that replaces the rows of the message table. -/
theorem on_transaction {α : Type} {body : Tables → Except StoreError (α × Tables)} {result : α}
    {after : MessageCatalog} (indexed : after.IsIndexed)
    (replaces : body database.tables =
      .ok (result, { database.tables with messages := some after.table })) :
    ∃ changed, (TableDatabase.transaction context body).on database = (.ok result, changed) ∧
      changed.Holds after := by
  refine ⟨{ database with tables := { database.tables with messages := some after.table } }, ?_,
    holds.isOpen, rfl, indexed⟩
  rw [TableDatabase.transaction, StoreM.on_ofStep, ready_eq_ok live holds, replaces]
  rfl

/-- A put binds the row of the message. -/
theorem on_put (tenant : String) (message : Json) {properties : Properties}
    (indexable : properties.isEmpty = false) (known : properties.AreIndexed) :
    ∃ after, (put context tenant message properties).on database =
        (.ok (Message.encode message).identifier, after) ∧
      after.Holds (catalog.insert [tenant, (Message.encode message).identifier.toText]
        (.of message properties)) := by
  have written : ∃ after, (TableDatabase.transaction context fun tables => do
      let table ← tables.messageTable
      let key := [tenant, (Message.encode message).identifier.toText]
      let row := (StoredMessage.of message properties).row
      pure ((), { tables with messages := some (table.insert key row) })).on database =
        (.ok (), after) ∧
      after.Holds (catalog.insert [tenant, (Message.encode message).identifier.toText]
        (.of message properties)) := by
    apply on_transaction live holds (holds.indexed.insert _ message known)
    rw [holds.messageTable, MessageCatalog.table, MessageCatalog.table, OrderedMap.mapValues_insert]
    rfl
  rcases written with ⟨after, happens, afterHolds⟩
  refine ⟨after, ?_, afterHolds⟩
  rw [put, StoreM.on_bind, StoreM.on_ofExcept, context.check_eq_ok_iff.2 live, indexable]
  simp only [Bool.false_eq_true, if_false]
  simp only [StoredMessage.row, StoredMessage.of, Column.cells] at happens
  simp only [StoreM.on_bind, StoreM.on_ofExcept, Column.row_eq_ok known, happens]
  rfl

/-- A delete unbinds the identifier. -/
theorem on_delete (tenant : String) {identifier : String} {parsed : ContentId}
    (parses : ContentId.parse identifier = .ok parsed) :
    ∃ after, (delete context tenant identifier).on database = (.ok (), after) ∧
      after.Holds (catalog.erase [tenant, parsed.toText]) := by
  rw [delete, parses, StoreM.on_bind, StoreM.on_ofExcept]
  apply on_transaction live holds (holds.indexed.erase _)
  rw [holds.messageTable, MessageCatalog.table, MessageCatalog.table,
    OrderedMap.mapValues_erase]
  rfl

/-- A clear leaves no row. -/
theorem on_clear : ∃ after, (clear context).on database = (.ok (), after) ∧ after.Holds .empty := by
  apply on_transaction live holds .empty
  rw [holds.messageTable]
  rfl

/-- A look-up finds the message that the catalog binds. -/
theorem on_find? (tenant : String) {identifier : String} {parsed : ContentId}
    (parses : ContentId.parse identifier = .ok parsed) :
    (find? context tenant identifier).on database =
      (catalog.load? tenant parsed.toText, database) := by
  have row : (TableDatabase.read context fun tables => do
      pure ((← tables.messageTable).find? [tenant, parsed.toText])).on database =
        (.ok ((catalog.find? [tenant, parsed.toText]).map StoredMessage.row), database) := by
    rw [TableDatabase.read, StoreM.on_ofStep, ready_eq_ok live holds, holds.messageTable,
      ← OrderedMap.find?_mapValues]
    rfl
  rw [find?, parses, StoreM.on_bind, StoreM.on_ofExcept]
  simp only [StoreM.on_bind, row, MessageCatalog.load?]
  cases catalog.find? [tenant, parsed.toText] with
  | none => rfl
  | some stored =>
      have decoded : decodeRow stored.row = stored.load := rfl
      simp only [Option.map_some, StoreM.on_bind, StoreM.on_ofExcept, decoded]
      cases stored.load <;> rfl

end Admitted

end MessageTable

end TenantStore
