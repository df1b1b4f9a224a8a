import TenantStore.Message.Store
import TenantStore.Table.Condition
import TenantStore.Table.Database

/-!
# Messages in a table

A message is a row with its block, its inline payload and a column for each of its properties.
Pages are counted in rows: the cursor of a page is the number of rows before the next one, in
decimal.
-/

namespace TenantStore.MessageTable

/-- Open the database. -/
def reopen : StoreM TableDatabase Unit := TableDatabase.reopen

/-- Close the database. -/
def close : StoreM TableDatabase Unit := TableDatabase.close

/-- Store a message under its properties, in place of an earlier row of it.  The row is taken to be
short enough: the database refuses those whose record is longer than a thousand million bytes. -/
def put (context : Context) (tenant : String) (message : Json) (properties : Properties) :
    StoreM TableDatabase ContentId := do
  StoreM.ofExcept context.check
  if properties.isEmpty then throw .emptyIndexSet
  let cells ← StoreM.ofExcept (Column.row properties)
  let encoded := Message.encode message
  let row : MessageRow := ⟨encoded.content, encoded.payload, .ofList cells⟩
  TableDatabase.transaction context fun tables => do
    let table ← tables.messageTable
    let key := [tenant, encoded.identifier.toText]
    pure ((), { tables with messages := some (table.insert key row) })
  pure encoded.identifier

/-- The message of a row. -/
def decodeRow (row : MessageRow) : Except StoreError Json := Message.decode row.content row.payload

/-- The message of a written identifier, if it is stored. -/
def find? (context : Context) (tenant identifier : String) :
    StoreM TableDatabase (Option Json) := do
  let identifier ← StoreM.ofExcept (ContentId.parse identifier)
  let row? ← TableDatabase.read context fun tables => do
    pure ((← tables.messageTable).find? [tenant, identifier.toText])
  match row? with
  | none => pure none
  | some row => do pure (some (← StoreM.ofExcept (decodeRow row)))

/-- The number that a cursor stands for: decimal digits, behind a plus sign or not. -/
def offsetOf? (token : String) : Option Nat :=
  let digits := match token.toList with
    | '+' :: rest => rest
    | characters => characters
  if digits.isEmpty || !digits.all Char.isDigit then none
  else
    let value := Json.decimalValue digits
    if value ≤ largestCount then some value else none

/-- The number of rows before a page. -/
def decodeOffset : Option String → Except StoreError Nat
  | none => .ok 0
  | some token =>
    match offsetOf? token with
    | some offset => .ok offset
    | none => .error (.invalidCursor (.unreadable token))

/-- The largest number of rows that a statement can skip. -/
def largestOffset : Nat := Int64.maxValue.toInt.toNat

/-- A selected row: its sort column, its identifier, and itself. -/
structure Selected where
  value : String
  identifier : String
  row : MessageRow

/-- Whether the first row does not come after the second: the sort column counts first, then the
identifier, both by their bytes. -/
def Selected.le (first second : Selected) : Bool :=
  let firstValue := Text.bytes first.value
  let secondValue := Text.bytes second.value
  firstValue < secondValue ||
    (firstValue = secondValue &&
      decide (Text.bytes first.identifier ≤ Text.bytes second.identifier))

/-- The row under a key as a selected one, if it is the tenant's, its sort column is not empty and
the condition is true of it. -/
def select? (tenant sortColumn : String) (condition : Option Condition)
    (entry : List String × MessageRow) : Option Selected :=
  match entry.1, entry.2.cells.find? sortColumn with
  | [owner, identifier], some value =>
    let admitted := match condition with
      | none => true
      | some condition => condition.selects entry.2.cells.find?
    if owner = tenant && admitted then some ⟨value, identifier, entry.2⟩ else none
  | _, _ => none

/-- Refuse a condition that is too large for the statement that selects rows.  Apart from it the
statement compares the tenant, which is a parameter, and asks for a sort column that is not
empty. -/
def admitted (condition : Option Condition) : Except StoreError Unit :=
  if condition.all fun condition => condition.fits 3 1 then .ok ()
  else .error (.backend .statementTooLarge)

/-- The tenant's rows that satisfy the condition, in the given order. -/
def selectedRows (table : OrderedMap (List String) MessageRow) (tenant sortColumn : String)
    (direction : Direction) (condition : Option Condition) : List Selected :=
  direction.arrange
    ((table.toList.filterMap (select? tenant sortColumn condition)).mergeSort Selected.le)

/-- The rows of a page, one more than its size if there are as many.  A size beyond the integers of
a statement is no limit, and a larger offset makes the statement fail. -/
def window (rows : List Selected) (size : Option Nat) (offset : Nat) :
    Except StoreError (List Selected) :=
  if largestOffset < offset then .error (.backend .numberTooLarge)
  else
    let rest := rows.drop offset
    match size with
    | none => .ok rest
    | some size =>
      if largestOffset < size then .ok rest else .ok (rest.take (min (size + 1) largestOffset))

/-- The rows that a page keeps, and the cursor of the page if another row follows. -/
def pageRows (rows : List Selected) (size : Option Nat) (offset : Nat) :
    List Selected × Option String :=
  match size with
  | none => (rows, none)
  | some size =>
    if size < rows.length then (rows.take size, some (toString (offset + size))) else (rows, none)

/-- A page of the tenant's messages that any of the filters admits and that carry the sort property,
in the order of its values and then of their identifiers. -/
def query (context : Context) (tenant : String) (filters : List Filter) (sort : Option MessageSort)
    (pagination : Option Pagination) : StoreM TableDatabase MessagePage := do
  StoreM.ofExcept (Filter.validateAll filters)
  let sort := sort.getD {}
  let sortColumn ← StoreM.ofExcept (Column.ofProperty sort.property.name)
  let size := pagination.bind Pagination.pageSize?
  let offset ← StoreM.ofExcept (decodeOffset (pagination.bind Pagination.cursor))
  let condition ← StoreM.ofExcept (Condition.ofFilters filters)
  let rows ← TableDatabase.read context fun tables => do
    admitted condition
    let table ← tables.messageTable
    window (selectedRows table tenant sortColumn sort.direction condition) size offset
  let (kept, cursor) := pageRows rows size offset
  let messages ← StoreM.ofExcept (kept.mapM fun selected => decodeRow selected.row)
  pure ⟨messages, cursor⟩

/-- Remove a message; it need not be stored. -/
def delete (context : Context) (tenant identifier : String) : StoreM TableDatabase Unit := do
  let identifier ← StoreM.ofExcept (ContentId.parse identifier)
  TableDatabase.transaction context fun tables => do
    let table ← tables.messageTable
    pure ((), { tables with messages := some (table.erase [tenant, identifier.toText]) })

/-- Remove every message of every tenant. -/
def clear (context : Context) : StoreM TableDatabase Unit :=
  TableDatabase.transaction context fun tables => do
    let _ ← tables.messageTable
    pure ((), { tables with messages := some .empty })

end TenantStore.MessageTable
