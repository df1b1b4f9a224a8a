import TenantStore.Json.Writing
import TenantStore.Table.Database

/-!
# Rows as cells

A statement that selects a whole table shows every row as cells under the names of their columns.
Empty columns are left out, and so is the number by which the database itself counts the messages.

A row is written as a record: a header with a type for each cell and its own length, and then the
cells.  The database refuses records of more than a thousand million bytes.  The length is reckoned
here only for payloads, which may well be that long.  The texts of all rows, the messages and what
is written of an event are taken to be short enough.
-/

namespace TenantStore

/-- What a column holds. -/
inductive Cell where
  | text (value : String)
  | binary (value : Bytes)
  | integer (value : Nat)
  deriving DecidableEq, Repr

namespace Cell

/-- The bytes of a number in a record; nought and one need none. -/
def integerWidth (value : Nat) : Nat :=
  if value ≤ 1 then 0
  else if value ≤ 127 then 1
  else if value ≤ 32767 then 2
  else if value ≤ 8388607 then 3
  else if value ≤ 2147483647 then 4
  else if value ≤ 140737488355327 then 6
  else 8

/-- The bytes of a cell in a record. -/
def width : Cell → Nat
  | .text value => value.utf8ByteSize
  | .binary value => value.length
  | .integer value => integerWidth value

/-- The bytes of a number that is written with seven bits in a byte, eight in a ninth. -/
def varintWidth (value : Nat) : Nat := min 9 (value.log2 / 7 + 1)

/-- The bytes of the type of a cell.  Those of texts and binary values tell how long they are. -/
def typeWidth : Cell → Nat
  | .text value => varintWidth (2 * value.utf8ByteSize + 13)
  | .binary value => varintWidth (2 * value.length + 12)
  | .integer _ => 1

end Cell

/-- A row: the columns that are not empty, each with its cell. -/
abbrev Row := List (String × Cell)

namespace Row

/-- The length of a row as a record, if it has so few columns that one byte tells the length of its
header, and none of them is empty. -/
def recordLength (row : Row) : Nat :=
  row.foldl (fun length cell => length + cell.2.typeWidth + cell.2.width) 1

/-- The longest record that a table keeps. -/
def longestRecord : Nat := 1000000000

/-- The cell of a column that can be empty. -/
def optional (column : String) (value : Option String) : Row :=
  value.toList.map fun value => (column, .text value)

/-- The cells of the texts that identify a row. -/
def ofKey (columns key : List String) : Row := columns.zip (key.map .text)

/-- The cells of a message. -/
def ofMessage (entry : List String × MessageRow) : Row :=
  ofKey ["tenant", "message_cid"] entry.1 ++
    [("encoded_message_bytes", .binary entry.2.content)] ++
    optional "encoded_data" entry.2.payload ++
    entry.2.cells.toList.map fun cell => (cell.1, .text cell.2)

/-- The cells of a payload. -/
def ofPayload (entry : List String × PayloadRow) : Row :=
  ofKey ["tenant", "data_cid"] entry.1 ++
    [("encoded_data", .binary entry.2.content), ("data_size", .integer entry.2.size)]

/-- The cells of a reference to a payload. -/
def ofReference (key : List String) : Row := ofKey ["tenant", "data_cid", "message_cid"] key

/-- The cells of an event. -/
def ofEvent (entry : Nat × EventRow) : Row :=
  [("watermark", .integer entry.1), ("tenant", .text entry.2.tenant)] ++
    optional "event_type" entry.2.kind ++
    [("message_cid", .text entry.2.message)] ++
    optional "data_cid" entry.2.payload ++
    [("metadata", .text entry.2.properties.toJson.render)] ++
    optional "timestamp" entry.2.timestamp

end Row

namespace Tables

/-- The rows of a table, in the order of what identifies them. -/
def rows (tables : Tables) : TableName → Except StoreError (List Row)
  | .messages => tables.messageTable.map fun table => table.toList.map Row.ofMessage
  | .payloads => tables.payloadTable.map fun table => table.toList.map Row.ofPayload
  | .references => tables.referenceTable.map fun table => table.keys.map Row.ofReference
  | .events => tables.eventTable.map fun table => table.rows.toList.map Row.ofEvent

end Tables

end TenantStore
