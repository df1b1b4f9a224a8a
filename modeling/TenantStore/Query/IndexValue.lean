import TenantStore.Bytes
import TenantStore.Json.Basic
import TenantStore.StoreError
import TenantStore.Text.Quoted

/-!
# Index values

The values an item can be indexed under: booleans, signed 64-bit integers and texts.  Values of one
kind are ordered, texts by their UTF-8 bytes; values of different kinds are not comparable.
-/

namespace TenantStore

/-- A value of an indexed property. -/
inductive IndexValue where
  | boolean (value : Bool)
  | integer (value : Int64)
  | text (value : String)
  deriving DecidableEq, Repr

/-- The properties of an item, in the order of their names. -/
abbrev Properties := OrderedMap String IndexValue

/-- The lexicographic comparison of byte sequences. -/
def Bytes.compare (first second : Bytes) : Ordering :=
  if first < second then .lt else if second < first then .gt else .eq

namespace IndexValue

/-- The comparison of two values, if they are of one kind. -/
def compare? : IndexValue → IndexValue → Option Ordering
  | .boolean first, .boolean second => some (Ord.compare first second)
  | .integer first, .integer second => some (Ord.compare first.toInt second.toInt)
  | .text first, .text second => some (Bytes.compare (Text.bytes first) (Text.bytes second))
  | _, _ => none

/-- The value as a document. -/
def toJson : IndexValue → Json
  | .boolean value => .boolean value
  | .integer value => .integer value.toInt
  | .text value => .text value

/-- The integer as an index value, if it is a signed 64-bit one. -/
def ofInt? (value : Int) : Option IndexValue :=
  if Int64.minValue.toInt ≤ value ∧ value ≤ Int64.maxValue.toInt then
    some (.integer (Int64.ofInt value)) else none

/-- The value whose document this is. -/
def ofJson? : Json → Option IndexValue
  | .boolean value => some (.boolean value)
  | .integer value => ofInt? value
  | .text value => some (.text value)
  | _ => none

/-- The value that a caller's document stands for; a double without a fraction counts as an
integer. -/
def ofDocument (property : String) (document : Json) : Except StoreError IndexValue :=
  let integral (value? : Option Int) : Except StoreError IndexValue :=
    match value?.bind ofInt? with
    | some value => .ok value
    | none => .error (.invalidIndexValue property .notIntegral)
  match document with
  | .boolean value => .ok (.boolean value)
  | .text value => .ok (.text value)
  | .integer value => integral (some value)
  | .double value => integral value.toInt?
  | .null => .error (.invalidIndexValue property .null)
  | .array _ | .object _ => .error (.invalidIndexValue property .nested)

/-- The text, if the value is one. -/
def text? : IndexValue → Option String
  | .text value => some value
  | _ => none

/-- The number, if the value is one. -/
def integer? : IndexValue → Option Int64
  | .integer value => some value
  | _ => none

/-- The words shown for a value; a text is quoted. -/
def shown : IndexValue → String
  | .boolean true => "true"
  | .boolean false => "false"
  | .integer value => toString value.toInt
  | .text value => Text.quoted value

end IndexValue

namespace Properties

/-- The properties as a document. -/
def toJson (properties : Properties) : Json :=
  .object (properties.toList.map fun entry => (entry.1, entry.2.toJson))

/-- The properties whose document this is; of a name given twice the last value stays. -/
def ofJson? (document : Json) : Option Properties := do
  let members ← document.object?
  let entries ← members.mapM fun member => (IndexValue.ofJson? member.2).map (member.1, ·)
  some (OrderedMap.ofList entries)

/-- The properties that a caller's object stands for; the first unusable value, in the order of the
names, is reported. -/
def ofDocuments (members : List (String × Json)) : Except StoreError Properties := do
  let ordered := (OrderedMap.ofList members).toList
  let entries ← ordered.mapM fun member => do
    let value ← IndexValue.ofDocument member.1 member.2
    pure (member.1, value)
  pure (OrderedMap.ofList entries)

end Properties

end TenantStore
