import TenantStore.Json.Double
import TenantStore.OrderedMap

/-!
# JSON documents

A document is null, a boolean, an integer between `-2 ^ 63` and `2 ^ 64 - 1`, a double, a text, a
list of documents, or a list of named documents.  Integers and doubles are different documents even
where their values agree.  The members of an object stand in the order in which they were written,
so a reader can tell a repeated name; `normalize` puts them in the order of their names and keeps
the last of each.
-/

namespace TenantStore

/-- A JSON document. -/
inductive Json where
  | null
  | boolean (value : Bool)
  | integer (value : Int)
  | double (value : Double)
  | text (value : String)
  | array (elements : List Json)
  | object (members : List (String × Json))
  deriving Inhabited

namespace Json

/-- The value of the last member of that name. -/
def lastMember? (name : String) (members : List (String × Json)) : Option Json :=
  (members.reverse.find? fun member => member.1 == name).map Prod.snd

/-- The member of that name, if the document is an object that has one. -/
def member? (document : Json) (name : String) : Option Json :=
  match document with
  | .object members => lastMember? name members
  | _ => none

mutual

/-- The document with the members of every object in the order of their names, the last of each
name being kept. -/
def normalize : Json → Json
  | .array elements => .array (normalizeAll elements)
  | .object members => .object (OrderedMap.ofList (normalizeMembers members)).toList
  | .null => .null
  | .boolean value => .boolean value
  | .integer value => .integer value
  | .double value => .double value
  | .text value => .text value

/-- Each document normalized. -/
def normalizeAll : List Json → List Json
  | [] => []
  | element :: rest => normalize element :: normalizeAll rest

/-- The members with their documents normalized. -/
def normalizeMembers : List (String × Json) → List (String × Json)
  | [] => []
  | (name, document) :: rest => (name, normalize document) :: normalizeMembers rest

end

mutual

/-- The greatest number of lists and objects around one another. -/
def depth : Json → Nat
  | .array elements => depthOfAll elements + 1
  | .object members => depthOfMembers members + 1
  | _ => 0

/-- The greatest depth of the documents. -/
def depthOfAll : List Json → Nat
  | [] => 0
  | element :: rest => max (depth element) (depthOfAll rest)

/-- The greatest depth of the members' documents. -/
def depthOfMembers : List (String × Json) → Nat
  | [] => 0
  | (_, document) :: rest => max (depth document) (depthOfMembers rest)

end

/-- The text of a document that is one. -/
def text? : Json → Option String
  | .text value => some value
  | _ => none

/-- The integer of a document that is one. -/
def integer? : Json → Option Int
  | .integer value => some value
  | _ => none

/-- The truth value of a document that is one. -/
def boolean? : Json → Option Bool
  | .boolean value => some value
  | _ => none

/-- The elements of a document that is a list. -/
def array? : Json → Option (List Json)
  | .array elements => some elements
  | _ => none

/-- The members of a document that is an object. -/
def object? : Json → Option (List (String × Json))
  | .object members => some members
  | _ => none

/-- The integer of a document, if it lies between 0 and `2 ^ 64 - 1`. -/
def natural64? : Json → Option Nat
  | .integer value => if 0 ≤ value ∧ value < UInt64.size then some value.toNat else none
  | _ => none

end Json

end TenantStore
