import TenantStore.Json.Reading
import TenantStore.Json.Record
import TenantStore.Json.Writing
import TenantStore.Query.IndexValue

/-!
# Records of an index and cursors

An index keeps two kinds of records as JSON: an item with its properties, and the properties alone.
A cursor names the last item of a page by its sort value and its identifier; its token is the
hexadecimal text of a JSON record.
-/

namespace TenantStore

/-- An item of an index, with the properties that it is indexed under. -/
structure IndexedItem where
  identifier : String
  properties : Properties
  deriving DecidableEq

/-- The bytes of a document as it is written in a record. -/
def Json.toBytes (document : Json) : Bytes := Text.bytes document.render

namespace Properties

/-- The record of the properties of an item. -/
def toRecord (properties : Properties) : Bytes := properties.toJson.toBytes

/-- The properties that a record holds. -/
def ofRecord (record : Bytes) : Except StoreError Properties :=
  match (Json.ofBytes? record).bind ofJson? with
  | some properties => .ok properties
  | none => .error (.serialization .malformedRecord)

end Properties

namespace IndexedItem

/-- The item as a document. -/
def toJson (item : IndexedItem) : Json :=
  .object [("itemId", .text item.identifier), ("indexes", item.properties.toJson)]

/-- The names of the members of an item's record. -/
def fieldNames : List String := ["itemId", "indexes"]

/-- The item that a document stands for. -/
def ofJson? (document : Json) : Option IndexedItem := do
  match ← document.fields? fieldNames with
  | [some identifier, some properties] =>
    some ⟨← identifier.text?, ← Properties.ofJson? properties⟩
  | _ => none

/-- The record of an item. -/
def toRecord (item : IndexedItem) : Bytes := item.toJson.toBytes

/-- The item that a record holds; what the record holds beside the fields is passed over. -/
def ofRecord (record : Bytes) : Except StoreError IndexedItem :=
  match (Json.recordOfBytes? fieldNames record).bind ofJson? with
  | some item => .ok item
  | none => .error (.serialization .malformedRecord)

end IndexedItem

/-- A position among the items that carry a property. -/
structure Cursor where
  identifier : String
  value : IndexValue
  deriving DecidableEq

namespace Cursor

/-- The position after an item. -/
def after (item : IndexedItem) (sortProperty : String) : Except StoreError Cursor :=
  match item.properties.find? sortProperty with
  | some value => .ok ⟨item.identifier, value⟩
  | none => .error (.invalidQuery (.noSortValue item.identifier sortProperty))

/-- The cursor as a document. -/
def toJson (cursor : Cursor) : Json :=
  .object [("itemId", .text cursor.identifier), ("value", cursor.value.toJson)]

/-- The names of the members of a cursor's document. -/
def fieldNames : List String := ["itemId", "value"]

/-- The cursor that a document stands for. -/
def ofJson? (document : Json) : Option Cursor := do
  match ← document.fields? fieldNames with
  | [some identifier, some value] => some ⟨← identifier.text?, ← IndexValue.ofJson? value⟩
  | _ => none

/-- The token of a cursor. -/
def encode (cursor : Cursor) : String := cursor.toJson.toBytes.toHex

/-- The cursor of a token; what its record holds beside the fields is passed over. -/
def decode (token : String) : Except StoreError Cursor :=
  match ((Bytes.ofHex? token).bind (Json.recordOfBytes? fieldNames)).bind ofJson? with
  | some cursor => .ok cursor
  | none => .error (.invalidCursor (.unreadable token))

end Cursor

end TenantStore
