import TenantStore.Payload.Store
import TenantStore.Table.Rows

/-!
# Payloads in tables

A payload is one row with all its bytes, and a reference to it another.  Identifiers are computed in
the layout that a payload store of blocks would use, so both kinds of store name a payload alike.  A
payload that makes its row too long is refused.
-/

namespace TenantStore.PayloadTable

/-- A payload that was read. -/
structure LoadedPayload where
  identifier : ContentId
  content : Bytes
  deriving DecidableEq

/-- Open the database. -/
def reopen : StoreM TableDatabase Unit := TableDatabase.reopen

/-- Close the database. -/
def close : StoreM TableDatabase Unit := TableDatabase.close

/-- The error for a payload that is not kept. -/
def notFound (tenant : String) (payload : ContentId) : StoreError :=
  .payloadNotFound tenant payload.toText

/-- Bind a key that is not bound yet; one that is keeps its row. -/
def insertIfAbsent {ν : Type} (table : OrderedMap (List String) ν) (key : List String) (row : ν) :
    OrderedMap (List String) ν :=
  if table.contains key then table else table.insert key row

/-- Keep a reference of a message to a payload, once. -/
def addReference (tables : Tables) (tenant message : String) (payload : ContentId) :
    Except StoreError Tables := do
  let table ← tables.referenceTable
  let key := [tenant, payload.toText, message]
  pure { tables with references := some (insertIfAbsent table key ()) }

/-- Refuse a payload whose row would be too long. -/
def checkRow (tenant : String) (payload : ContentId) (row : PayloadRow) : Except StoreError Unit :=
  if (Row.ofPayload ([tenant, payload.toText], row)).recordLength ≤ Row.longestRecord then .ok ()
  else .error (.backend .rowTooLong)

/-- Read a payload and keep it for a message.  Nothing is written unless the bytes come to an end
and the payload has the expected identifier.  The row is reckoned even if there is one already,
whose bytes are the same as long as no digests collide. -/
def put (layout : PayloadLayout) (context : Context) (tenant message payload : String)
    (feed : Feed) : StoreM TableDatabase StoredPayload := do
  StoreM.ofExcept context.check
  let expected ← StoreM.ofExcept (ContentId.parse payload)
  let content ← StoreM.ofExcept feed.readAll
  let computed ← StoreM.ofExcept (layout.contentId content)
  if computed ≠ expected then throw (.contentMismatch expected.toText computed.toText)
  TableDatabase.transaction context fun tables => do
    let table ← tables.payloadTable
    let row : PayloadRow := ⟨content, content.length⟩
    checkRow tenant expected row
    let stored := insertIfAbsent table [tenant, expected.toText] row
    pure ((), ← addReference { tables with payloads := some stored } tenant message expected)
  pure ⟨expected, content.length⟩

/-- Read a payload for a message that refers to it. -/
def load (context : Context) (tenant message payload : String) :
    StoreM TableDatabase LoadedPayload := do
  let identifier ← StoreM.ofExcept (ContentId.parse payload)
  let (row?, referenced) ← TableDatabase.read context fun tables => do
    let row? := (← tables.payloadTable).find? [tenant, identifier.toText]
    let references ← tables.referenceTable
    pure (row?, references.contains [tenant, identifier.toText, message])
  match row? with
  | none => throw (notFound tenant identifier)
  | some row =>
    if !referenced then throw (.accessDenied message identifier.toText)
    pure ⟨identifier, row.content⟩

/-- Let a message refer to a payload that is kept. -/
def associate (context : Context) (tenant message payload : String) :
    StoreM TableDatabase StoredPayload := do
  let identifier ← StoreM.ofExcept (ContentId.parse payload)
  let size ← TableDatabase.transaction context fun tables => do
    match (← tables.payloadTable).find? [tenant, identifier.toText] with
    | none => .error (notFound tenant identifier)
    | some row => pure (row.size, ← addReference tables tenant message identifier)
  pure ⟨identifier, size⟩

/-- Whether a reference is one to the payload. -/
def refersTo (tenant : String) (payload : ContentId) (key : List String) : Bool :=
  key.take 2 == [tenant, payload.toText]

/-- Drop a message's reference to a payload, and the payload if no other reference is left. -/
def delete (context : Context) (tenant message payload : String) :
    StoreM TableDatabase Unit := do
  let identifier ← StoreM.ofExcept (ContentId.parse payload)
  TableDatabase.transaction context fun tables => do
    let references ← tables.referenceTable
    let remaining := references.erase [tenant, identifier.toText, message]
    let tables := { tables with references := some remaining }
    if remaining.keys.any (refersTo tenant identifier) then pure ((), tables)
    else
      let table ← tables.payloadTable
      pure ((), { tables with payloads := some (table.erase [tenant, identifier.toText]) })

/-- Drop every payload and every reference. -/
def clear (context : Context) : StoreM TableDatabase Unit :=
  TableDatabase.transaction context fun tables => do
    let _ ← tables.referenceTable
    let _ ← tables.payloadTable
    pure ((), { tables with references := some .empty, payloads := some .empty })

end TenantStore.PayloadTable
