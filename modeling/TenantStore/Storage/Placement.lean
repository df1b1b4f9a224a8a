import TenantStore.Event.Log
import TenantStore.Message.Repair
import TenantStore.Payload.Store
import TenantStore.Storage.Databases
import TenantStore.Table.Events
import TenantStore.Table.Messages
import TenantStore.Table.Payloads

/-!
# Stores in their databases

The message store, the payload store and the event log lie in ordered databases or in one relational
database.  A placement says where, and offers the operations of the three stores alike for both
kinds.
-/

namespace TenantStore

/-- Where the three stores lie. -/
inductive Placement where
  | ordered (blocks index payloads events : String)
  | relational (name : String)
  deriving DecidableEq, Repr

/-- The bytes of an opened payload. -/
inductive PayloadContent where
  /-- They are fetched from the ordered database of that name as they are asked for. -/
  | fetched (database : String) (reader : PayloadReader)
  /-- They were read when the payload was opened; these are left. -/
  | loaded (rest : Bytes)

/-- A payload that was opened in some placement. -/
structure PayloadStream where
  identifier : ContentId
  size : Nat
  /-- Its bytes, from the first one not yet read. -/
  content : PayloadContent

namespace PayloadStream

/-- Read until `wanted` bytes have come, the payload ends or an error occurs: the bytes, the error,
and the payload from there on. -/
def drain (stream : PayloadStream) (databases : Databases) (wanted : Nat) :
    Bytes × Option StoreError × PayloadStream :=
  match stream.content with
  | .loaded rest =>
    (rest.take wanted, none, { stream with content := .loaded (rest.drop wanted) })
  | .fetched database reader =>
    let outcome := reader.drain (databases.orderedNamed database) wanted
    (outcome.content, outcome.problem,
      { stream with content := .fetched database outcome.reader })

end PayloadStream

namespace Placement

open Databases

/-- Whether a message and its index entries are written in one step. -/
def isAtomic : Placement → Bool
  | .ordered blocks index _ _ => blocks = index
  | .relational _ => true

/-- Store a message under its properties. -/
def putMessage (placement : Placement) (context : Context) (tenant : String) (message : Json)
    (properties : Properties) : StoreM Databases ContentId :=
  match placement with
  | .ordered blocks index _ _ =>
    onMessages blocks index (MessageStore.put context tenant message properties)
  | .relational name => onRelational name (MessageTable.put context tenant message properties)

/-- The message of a written identifier, if it is stored. -/
def findMessage? (placement : Placement) (context : Context) (tenant identifier : String) :
    StoreM Databases (Option Json) :=
  match placement with
  | .ordered blocks index _ _ =>
    onMessages blocks index (MessageStore.find? context tenant identifier)
  | .relational name => onRelational name (MessageTable.find? context tenant identifier)

/-- Remove a message. -/
def deleteMessage (placement : Placement) (context : Context) (tenant identifier : String) :
    StoreM Databases Unit :=
  match placement with
  | .ordered blocks index _ _ =>
    onMessages blocks index (MessageStore.delete context tenant identifier)
  | .relational name => onRelational name (MessageTable.delete context tenant identifier)

/-- A page of a tenant's messages. -/
def queryMessages (placement : Placement) (context : Context) (tenant : String)
    (filters : List Filter) (sort : Option MessageSort) (pagination : Option Pagination) :
    StoreM Databases MessagePage :=
  match placement with
  | .ordered blocks index _ _ =>
    onMessages blocks index (MessageStore.query context tenant filters sort pagination)
  | .relational name =>
    onRelational name (MessageTable.query context tenant filters sort pagination)

/-- The page of a query and those reached by following its cursor, at most `count` pages. -/
def messagePages (placement : Placement) (context : Context) (tenant : String)
    (filters : List Filter) (sort : Option MessageSort) :
    (count : Nat) → Option Pagination → StoreM Databases (List MessagePage)
  | 0, _ => pure []
  | count + 1, pagination => do
    let page ← placement.queryMessages context tenant filters sort pagination
    match page.cursor with
    | none => pure [page]
    | some cursor => do
      let following := { pagination.getD {} with cursor := some cursor }
      pure (page :: (← messagePages placement context tenant filters sort count (some following)))

/-- Remove every message of every tenant. -/
def clearMessages (placement : Placement) (context : Context) : StoreM Databases Unit :=
  match placement with
  | .ordered blocks index _ _ => onMessages blocks index (MessageStore.clear context)
  | .relational name => onRelational name (MessageTable.clear context)

/-- Open the databases of the messages. -/
def reopenMessages : Placement → StoreM Databases Unit
  | .ordered blocks index _ _ => onMessages blocks index MessageStore.reopen
  | .relational name => onRelational name MessageTable.reopen

/-- Close the databases of the messages. -/
def closeMessages : Placement → StoreM Databases Unit
  | .ordered blocks index _ _ => onMessages blocks index MessageStore.close
  | .relational name => onRelational name MessageTable.close

/-- Repair the messages of a tenant.  A relational database writes a message in one step, so there
is nothing to repair. -/
def reconcile (placement : Placement) (context : Context) (tenant : String) :
    StoreM Databases RepairReport :=
  match placement with
  | .ordered blocks index _ _ => onMessages blocks index (MessageStore.reconcile context tenant)
  | .relational _ => pure {}

/-- Read a payload and keep it for a message. -/
def putPayload (placement : Placement) (layout : PayloadLayout) (context : Context)
    (tenant message payload : String) (feed : Feed) : StoreM Databases StoredPayload :=
  match placement with
  | .ordered _ _ payloads _ =>
    onOrdered payloads (PayloadStore.put layout context tenant message payload feed)
  | .relational name =>
    onRelational name (PayloadTable.put layout context tenant message payload feed)

/-- Open a payload for a message that refers to it. -/
def openPayload (placement : Placement) (context : Context) (tenant message payload : String) :
    StoreM Databases PayloadStream :=
  match placement with
  | .ordered _ _ payloads _ => do
    let opened ← onOrdered payloads (PayloadStore.openPayload context tenant message payload)
    pure ⟨opened.identifier, opened.size, .fetched payloads opened.reader⟩
  | .relational name => do
    let loaded ← onRelational name (PayloadTable.load context tenant message payload)
    pure ⟨loaded.identifier, loaded.content.length, .loaded loaded.content⟩

/-- Let a message refer to a payload that is kept. -/
def associatePayload (placement : Placement) (context : Context)
    (tenant message payload : String) : StoreM Databases StoredPayload :=
  match placement with
  | .ordered _ _ payloads _ =>
    onOrdered payloads (PayloadStore.associate context tenant message payload)
  | .relational name => onRelational name (PayloadTable.associate context tenant message payload)

/-- Drop a message's reference to a payload. -/
def deletePayload (placement : Placement) (context : Context) (tenant message payload : String) :
    StoreM Databases Unit :=
  match placement with
  | .ordered _ _ payloads _ =>
    onOrdered payloads (PayloadStore.delete context tenant message payload)
  | .relational name => onRelational name (PayloadTable.delete context tenant message payload)

/-- Drop every payload and every reference. -/
def clearPayloads (placement : Placement) (context : Context) : StoreM Databases Unit :=
  match placement with
  | .ordered _ _ payloads _ => onOrdered payloads (PayloadStore.clear context)
  | .relational name => onRelational name (PayloadTable.clear context)

/-- Open the database of the payloads. -/
def reopenPayloads : Placement → StoreM Databases Unit
  | .ordered _ _ payloads _ => onOrdered payloads PayloadStore.reopen
  | .relational name => onRelational name PayloadTable.reopen

/-- Close the database of the payloads. -/
def closePayloads : Placement → StoreM Databases Unit
  | .ordered _ _ payloads _ => onOrdered payloads PayloadStore.close
  | .relational name => onRelational name PayloadTable.close

/-- Append the event of a message. -/
def appendEvent (placement : Placement) (context : Context) (tenant message : String)
    (properties : Properties) : StoreM Databases Unit :=
  match placement with
  | .ordered _ _ _ events => onOrdered events (EventLog.append context tenant message properties)
  | .relational name => onRelational name (EventTable.append context tenant message properties)

/-- The messages of a tenant's events that any of the filters admits. -/
def queryEvents (placement : Placement) (context : Context) (tenant : String)
    (filters : List Filter) (cursor : Option String) : StoreM Databases (List String) :=
  match placement with
  | .ordered _ _ _ events => onOrdered events (EventLog.query context tenant filters cursor)
  | .relational name => onRelational name (EventTable.query context tenant filters cursor)

/-- The messages of all events of a tenant. -/
def events (placement : Placement) (context : Context) (tenant : String) (cursor : Option String) :
    StoreM Databases (List String) :=
  match placement with
  | .ordered _ _ _ events => onOrdered events (EventLog.events context tenant cursor)
  | .relational name => onRelational name (EventTable.events context tenant cursor)

/-- Remove the events of messages. -/
def deleteEvents (placement : Placement) (context : Context) (tenant : String)
    (messages : List String) : StoreM Databases Unit :=
  match placement with
  | .ordered _ _ _ events => onOrdered events (EventLog.delete context tenant messages)
  | .relational name => onRelational name (EventTable.delete context tenant messages)

/-- Remove every event of every tenant. -/
def clearEvents (placement : Placement) (context : Context) : StoreM Databases Unit :=
  match placement with
  | .ordered _ _ _ events => onOrdered events (EventLog.clear context)
  | .relational name => onRelational name (EventTable.clear context)

/-- Open the database of the events. -/
def reopenEvents : Placement → StoreM Databases Unit
  | .ordered _ _ _ events => onOrdered events EventLog.reopen
  | .relational name => onRelational name EventTable.reopen

/-- Close the database of the events. -/
def closeEvents : Placement → StoreM Databases Unit
  | .ordered _ _ _ events => onOrdered events EventLog.close
  | .relational name => onRelational name EventTable.close

end Placement

end TenantStore
