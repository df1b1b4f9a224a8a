import TenantStore.Query.Filter
import TenantStore.Table.Database

/-!
# Events in a table

An event is a row under the next watermark, which is never given out twice while the table exists;
after the largest one no event can be added.  Filters are held against the properties of the row.
-/

namespace TenantStore.EventTable

/-- Open the database. -/
def reopen : StoreM TableDatabase Unit := TableDatabase.reopen

/-- Close the database. -/
def close : StoreM TableDatabase Unit := TableDatabase.close

/-- The text of a property, if it has one. -/
def textProperty (properties : Properties) (name : String) : Option String :=
  (properties.find? name).bind IndexValue.text?

/-- The interface and the method of a message, as far as they are given. -/
def kindOf (properties : Properties) : Option String :=
  match textProperty properties "interface", textProperty properties "method" with
  | some interface, some method => some (interface ++ method)
  | interface, method => interface <|> method

/-- The row of an event. -/
def rowOf (tenant message : String) (properties : Properties) : EventRow where
  tenant := tenant
  message := message
  kind := kindOf properties
  payload := textProperty properties "dataCid"
  timestamp := textProperty properties "messageTimestamp"
  properties := properties

/-- The watermark of a message's event, if there is one. -/
def watermarkOf? (table : EventTable) (tenant message : String) : Option Nat :=
  (table.rows.toList.find? fun entry =>
    entry.2.tenant == tenant && entry.2.message == message).map Prod.fst

/-- The table without the event of a message. -/
def remove (table : EventTable) (tenant message : String) : EventTable :=
  match table.watermarkOf? tenant message with
  | some watermark => { table with rows := table.rows.erase watermark }
  | none => table

/-- The largest watermark, which is the largest number of a row. -/
def largestWatermark : Nat := Int64.maxValue.toInt.toNat

/-- The table with an event at its end. -/
def add (table : EventTable) (row : EventRow) : Except StoreError EventTable :=
  let watermark := table.lastWatermark + 1
  if watermark ≤ largestWatermark then .ok ⟨table.rows.insert watermark row, watermark⟩
  else .error (.backend .tableFull)

/-- Append the event of a message, in place of an earlier event of it.  The row is taken to be short
enough: the database refuses those whose record is longer than a thousand million bytes. -/
def append (context : Context) (tenant message : String) (properties : Properties) :
    StoreM TableDatabase Unit :=
  TableDatabase.transaction context fun tables => do
    let table ← tables.eventTable
    let appended ← (table.remove tenant message).add (rowOf tenant message properties)
    pure ((), { tables with events := some appended })

/-- The watermark after which the events of a query begin. -/
def startOf (table : EventTable) (tenant : String) : Option String → Except StoreError Nat
  | none => .ok 0
  | some message =>
    match table.watermarkOf? tenant message with
    | some watermark => .ok watermark
    | none => .error (.invalidCursor (.noEvent message))

/-- The messages of the tenant's events that any of the filters admits, in the order of appending;
with a cursor, those after the event of that message. -/
def query (context : Context) (tenant : String) (filters : List Filter) (cursor : Option String) :
    StoreM TableDatabase (List String) := do
  StoreM.ofExcept (Filter.validateAll filters)
  let rows ← TableDatabase.read context fun tables => do
    let table ← tables.eventTable
    let start ← table.startOf tenant cursor
    pure (table.rows.toList.filter fun entry => entry.2.tenant == tenant && start < entry.1)
  let admitted := rows.filter fun entry => Filter.anyMatches filters entry.2.properties
  pure (admitted.map fun entry => entry.2.message)

/-- The messages of all events of the tenant, or of those after a message. -/
def events (context : Context) (tenant : String) (cursor : Option String) :
    StoreM TableDatabase (List String) :=
  query context tenant [] cursor

/-- The tables without the event of a message. -/
def removeFrom (tenant : String) (tables : Tables) (message : String) :
    Except StoreError Tables := do
  let table ← tables.eventTable
  pure { tables with events := some (table.remove tenant message) }

/-- Remove the events of messages, all or none. -/
def delete (context : Context) (tenant : String) (messages : List String) :
    StoreM TableDatabase Unit :=
  TableDatabase.transaction context fun tables => do
    pure ((), ← messages.foldlM (removeFrom tenant) tables)

/-- Remove every event of every tenant; watermarks go on. -/
def clear (context : Context) : StoreM TableDatabase Unit :=
  TableDatabase.transaction context fun tables => do
    let table ← tables.eventTable
    pure ((), { tables with events := some { table with rows := .empty } })

end TenantStore.EventTable
