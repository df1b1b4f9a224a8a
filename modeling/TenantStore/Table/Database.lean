import TenantStore.Context
import TenantStore.OrderedMap
import TenantStore.Query.IndexValue
import TenantStore.StoreM

/-!
# The tables of a relational database

A relational database has four tables: messages, payloads, references to payloads, and events.  A
table can be missing until the database is opened again, and a statement on a missing table fails.
The rows of a table are kept under the columns that identify them, in ascending order.
-/

namespace TenantStore

/-- A row of the message table, without the tenant and the identifier. -/
structure MessageRow where
  content : Bytes
  payload : Option String
  /-- The columns of indexed properties that are not empty. -/
  cells : OrderedMap String String
  deriving DecidableEq

/-- A row of the payload table, without the tenant and the identifier. -/
structure PayloadRow where
  content : Bytes
  size : Nat
  deriving DecidableEq

/-- A row of the event table, without the watermark. -/
structure EventRow where
  tenant : String
  message : String
  /-- The kind of the event: the interface and the method of the message, as far as they are
  given. -/
  kind : Option String
  payload : Option String
  timestamp : Option String
  properties : Properties
  deriving DecidableEq

/-- The rows of events by their watermarks, and the last watermark that was given out. -/
structure EventTable where
  rows : OrderedMap Nat EventRow := .empty
  lastWatermark : Nat := 0
  deriving DecidableEq

/-- The tables, each of which may be missing. -/
structure Tables where
  messages : Option (OrderedMap (List String) MessageRow) := some .empty
  payloads : Option (OrderedMap (List String) PayloadRow) := some .empty
  references : Option (OrderedMap (List String) Unit) := some .empty
  events : Option EventTable := some {}
  deriving DecidableEq

/-- The names of the tables. -/
inductive TableName where
  | messages
  | payloads
  | references
  | events
  deriving DecidableEq, Repr

namespace TableName

/-- The name of a table in statements. -/
def text : TableName → String
  | .messages => "message_store"
  | .payloads => "data_stores"
  | .references => "data_store_references"
  | .events => "event_logs"

/-- The table of a name. -/
def ofText? : String → Option TableName
  | "message_store" => some .messages
  | "data_stores" => some .payloads
  | "data_store_references" => some .references
  | "event_logs" => some .events
  | _ => none

end TableName

namespace Tables

/-- A table that a statement names. -/
def present {α : Type} (name : TableName) : Option α → Except StoreError α
  | some table => .ok table
  | none => .error (.backend (.missingTable name.text))

/-- The table of the messages, if it is there. -/
def messageTable (tables : Tables) : Except StoreError (OrderedMap (List String) MessageRow) :=
  present .messages tables.messages

/-- The table of the payloads, if it is there. -/
def payloadTable (tables : Tables) : Except StoreError (OrderedMap (List String) PayloadRow) :=
  present .payloads tables.payloads

/-- The table of the references, if it is there. -/
def referenceTable (tables : Tables) : Except StoreError (OrderedMap (List String) Unit) :=
  present .references tables.references

/-- The table of the events, if it is there. -/
def eventTable (tables : Tables) : Except StoreError EventTable := present .events tables.events

/-- The tables without one of them. -/
def drop (tables : Tables) : TableName → Except StoreError Tables
  | .messages => tables.messageTable.map fun _ => { tables with messages := none }
  | .payloads => tables.payloadTable.map fun _ => { tables with payloads := none }
  | .references => tables.referenceTable.map fun _ => { tables with references := none }
  | .events => tables.eventTable.map fun _ => { tables with events := none }

/-- The tables with every missing one created empty. -/
def completed (tables : Tables) : Tables where
  messages := some (tables.messages.getD .empty)
  payloads := some (tables.payloads.getD .empty)
  references := some (tables.references.getD .empty)
  events := some (tables.events.getD {})

end Tables

/-- A relational database: its tables, whether it is open, and whether it outlives being closed. -/
structure TableDatabase where
  tables : Tables := {}
  isOpen : Bool := true
  /-- Whether the tables are given up when the database is closed. -/
  isTransient : Bool := false
  deriving DecidableEq

namespace TableDatabase

/-- Refuse an operation under a stopped context, or on a closed database. -/
def ready (database : TableDatabase) (context : Context) : Except StoreError Unit := do
  context.check
  if database.isOpen then pure () else .error .storeNotOpen

/-- Ask an open database something under a live context. -/
def read {α : Type} (context : Context) (query : Tables → Except StoreError α) :
    StoreM TableDatabase α :=
  StoreM.ofStep fun database =>
    (database.ready context >>= fun _ => query database.tables, database)

/-- The error that a transaction reports for an error inside it. -/
def inTransaction : StoreError → StoreError
  | .backend fault => .transactionFailure fault
  | other => other

/-- Change the tables in a transaction: if it fails, nothing is changed. -/
def transaction {α : Type} (context : Context)
    (body : Tables → Except StoreError (α × Tables)) : StoreM TableDatabase α :=
  StoreM.ofStep fun database =>
    match database.ready context >>= fun _ => (body database.tables).mapError inTransaction with
    | .error problem => (.error problem, database)
    | .ok (result, tables) => (.ok result, { database with tables })

/-- Open the database, which creates missing tables; an open one stays as it is. -/
def reopen : StoreM TableDatabase Unit :=
  StoreM.ofStep fun database =>
    if database.isOpen then (.ok (), database)
    else (.ok (), { database with isOpen := true, tables := database.tables.completed })

/-- Close the database; the tables stay, unless it is transient. -/
def close : StoreM TableDatabase Unit :=
  StoreM.ofStep fun database =>
    let tables := if database.isTransient then {} else database.tables
    (.ok (), { database with isOpen := false, tables })

/-- Remove a table, outside of any transaction. -/
def dropTable (context : Context) (name : TableName) : StoreM TableDatabase Unit :=
  StoreM.ofStep fun database =>
    match database.ready context >>= fun _ => database.tables.drop name with
    | .error problem => (.error problem, database)
    | .ok tables => (.ok (), { database with tables })

end TableDatabase

end TenantStore
