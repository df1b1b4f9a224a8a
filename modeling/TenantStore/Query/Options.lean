import TenantStore.Direction
import TenantStore.Json.Record
import TenantStore.StoreError

/-!
# Sorting and paging

A query of messages names one of three sort properties, a direction, and optionally the size of a
page and the cursor of the page before.  A size of zero is no limit.
-/

namespace TenantStore

/-- The properties by which messages can be sorted. -/
inductive SortProperty where
  | dateCreated
  | datePublished
  | messageTimestamp
  deriving DecidableEq, Repr

namespace SortProperty

/-- The name of the property. -/
def name : SortProperty → String
  | .dateCreated => "dateCreated"
  | .datePublished => "datePublished"
  | .messageTimestamp => "messageTimestamp"

/-- The property that a word names, if messages are sorted by it. -/
def ofName? : String → Option SortProperty
  | "dateCreated" => some .dateCreated
  | "datePublished" => some .datePublished
  | "messageTimestamp" => some .messageTimestamp
  | _ => none

/-- The sort property that a caller names. -/
def parse (name : String) : Except StoreError SortProperty :=
  match ofName? name with
  | some property => .ok property
  | none => .error (.invalidQuery (.unknownSortProperty name))

end SortProperty

/-- The order of a message query. -/
structure MessageSort where
  property : SortProperty := .messageTimestamp
  direction : Direction := .ascending
  deriving DecidableEq, Repr

namespace MessageSort

/-- The order as a document. -/
def toJson (sort : MessageSort) : Json :=
  .object [("property", .text sort.property.name), ("direction", .text sort.direction.name)]

/-- The order that a document stands for; both fields must be given. -/
def ofJson? (document : Json) : Option MessageSort := do
  match ← document.fields? ["property", "direction"] with
  | [some property, some direction] =>
    some {
      property := ← SortProperty.ofName? (← property.choice? Json.isNull)
      direction := ← Direction.ofName? (← direction.choice? Json.isNull) }
  | _ => none

end MessageSort

/-- The page that a query asks for. -/
structure Pagination where
  /-- The greatest number of messages; none and zero are no limit. -/
  limit : Option Nat := none
  cursor : Option String := none
  deriving DecidableEq, Repr

namespace Pagination

/-- The size of a page, if it is limited. -/
def pageSize? (pagination : Pagination) : Option Nat := pagination.limit.filter (0 < ·)

/-- The page that a document stands for. -/
def ofJson? (document : Json) : Option Pagination := do
  match ← document.fields? ["limit", "cursor"] with
  | [limit, cursor] =>
    some {
      limit := ← Json.optional? Json.natural64? limit
      cursor := ← Json.optional? Json.text? cursor }
  | _ => none

end Pagination

/-- Counts are unsigned and of 64 bits. -/
def largestCount : Nat := UInt64.size - 1

/-- What an index is asked for. -/
structure QueryOptions where
  sortProperty : String := SortProperty.messageTimestamp.name
  direction : Direction := .ascending
  /-- The greatest number of items; none and zero are no limit. -/
  limit : Option Nat := none
  cursor : Option String := none
  deriving DecidableEq, Repr

namespace QueryOptions

/-- The options for a page of messages: one more item is asked for than the page holds, so that it
shows whether another page follows. -/
def forPage (sort : Option MessageSort) (pagination : Option Pagination) : QueryOptions :=
  let sort := sort.getD {}
  { sortProperty := sort.property.name
    direction := sort.direction
    limit := (pagination.bind Pagination.pageSize?).map fun size => min (size + 1) largestCount
    cursor := pagination.bind Pagination.cursor }

end QueryOptions

end TenantStore
