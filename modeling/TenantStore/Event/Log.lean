import TenantStore.Index.Store

/-!
# The event log

An event is an item of an index, named by its message and carrying the caller's properties and a
watermark.  Watermarks are drawn from a counter that lies beside the index and is written in the
same batch as the event, so they ascend in the order of appending.  A message that is appended again
moves to the end.
-/

namespace TenantStore.EventLog

/-- The property that events are ordered by. -/
def watermarkProperty : String := "watermark"

/-- The index of the events. -/
def eventIndex : ItemIndex := ⟨Scope.root.childNamed "events"⟩

/-- Where the counter lies. -/
def counterScope : Scope := Scope.root.childNamed "event-watermark"

/-- The key under which the last watermark is kept. -/
def counterKey : Bytes := counterScope.key (Text.bytes "counter")

/-- The last watermark that was given out, 0 if none was. -/
def lastWatermark (contents : Contents) : Except StoreError Nat :=
  match contents.find? counterKey with
  | none => .ok 0
  | some bytes =>
    if bytes.length = 8 then .ok bytes.toNat else .error (.serialization .malformedCounter)

/-- A watermark as a value of a property, if it is not too large for one. -/
def watermarkValue (watermark : Nat) : Except StoreError IndexValue :=
  match IndexValue.ofInt? watermark with
  | some value => .ok value
  | none => .error (.backend .watermarkOverflow)

/-- The watermark to give out next; the counter has 64 bits and starts over after the largest
one. -/
def nextWatermark (contents : Contents) : Except StoreError Nat :=
  (lastWatermark contents).map fun last => (last + 1) % UInt64.size

/-- The changes that append the event of a message under the next watermark. -/
def appendChanges (contents : Contents) (tenant message : String) (properties : Properties) :
    Except StoreError Batch := do
  let watermark ← nextWatermark contents
  let value ← watermarkValue watermark
  let event : Properties := properties.insert watermarkProperty value
  let indexed ← eventIndex.putBatch contents tenant message event
  pure (indexed ++ [.put counterKey (Bytes.bigEndian 8 watermark)])

/-- Open the database. -/
def reopen : StoreM Database Unit := Database.reopen

/-- Close the database. -/
def close : StoreM Database Unit := Database.close

/-- Append the event of a message, in place of an earlier event of it. -/
def append (context : Context) (tenant message : String) (properties : Properties) :
    StoreM Database Unit :=
  Database.update context fun contents => do
    pure ((), ← appendChanges contents tenant message properties)

/-- The position after the event of a message, as an index cursor. -/
def resumeAfter (context : Context) (tenant message : String) : StoreM Database String := do
  match ← eventIndex.properties? context tenant message with
  | none => throw (.invalidCursor (.noEvent message))
  | some properties =>
    match OrderedMap.find? properties watermarkProperty with
    | none => throw (.invalidCursor (.noWatermark message))
    | some value => pure (Cursor.encode ⟨message, value⟩)

/-- The messages of the tenant's events that any of the filters admits, in the order of appending;
with a cursor, those after the event of that message. -/
def query (context : Context) (tenant : String) (filters : List Filter) (cursor : Option String) :
    StoreM Database (List String) := do
  let position ← match cursor with
    | none => pure none
    | some message => do pure (some (← resumeAfter context tenant message))
  let options : QueryOptions := { sortProperty := watermarkProperty, cursor := position }
  let page ← eventIndex.query context tenant filters options
  pure (page.items.map IndexedItem.identifier)

/-- The messages of all events of the tenant, or of those after a message. -/
def events (context : Context) (tenant : String) (cursor : Option String) :
    StoreM Database (List String) :=
  query context tenant [] cursor

/-- Remove the events of messages, one after the other. -/
def delete (context : Context) (tenant : String) (messages : List String) :
    StoreM Database Unit :=
  messages.forM fun message => do
    let _ ← eventIndex.delete context tenant message

/-- Remove every event of every tenant; watermarks start over. -/
def clear (context : Context) : StoreM Database Unit :=
  Database.write context [eventIndex.clearChange, .delete counterKey]

end TenantStore.EventLog
