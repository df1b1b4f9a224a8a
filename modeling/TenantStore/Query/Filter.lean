import TenantStore.Json.Record
import TenantStore.Query.IndexValue

/-!
# Filters

A filter constrains some properties of an item; the item matches if it carries every constrained
property with an admitted value.  A list of filters admits what any of them admits, and the empty
list admits everything.
-/

namespace TenantStore

/-- Bounds on a value; any of them may be set, also two on one side. -/
structure Bounds where
  above : Option IndexValue := none
  /-- The value does not lie below this one. -/
  atLeast : Option IndexValue := none
  below : Option IndexValue := none
  /-- The value does not lie above this one. -/
  atMost : Option IndexValue := none
  deriving DecidableEq

namespace Bounds

/-- The lower bound and whether the bound itself is admitted; the strict one counts if both are
set. -/
def lower? (bounds : Bounds) : Option (IndexValue × Bool) :=
  match bounds.above, bounds.atLeast with
  | some value, _ => some (value, false)
  | none, some value => some (value, true)
  | none, none => none

/-- The upper bound and whether the bound itself is admitted; the strict one counts if both are
set. -/
def upper? (bounds : Bounds) : Option (IndexValue × Bool) :=
  match bounds.below, bounds.atMost with
  | some value, _ => some (value, false)
  | none, some value => some (value, true)
  | none, none => none

/-- Whether the value respects every bound that is set. -/
def admits (bounds : Bounds) (value : IndexValue) : Bool :=
  let respects (bound? : Option IndexValue) (admitted : Ordering → Bool) : Bool :=
    match bound? with
    | none => true
    | some bound =>
      match value.compare? bound with
      | some ordering => admitted ordering
      | none => false
  respects bounds.above (fun ordering => ordering == .gt) &&
    respects bounds.atLeast (fun ordering => ordering != .lt) &&
    respects bounds.below (fun ordering => ordering == .lt) &&
    respects bounds.atMost (fun ordering => ordering != .gt)

/-- The names of the bounds in documents. -/
def fieldNames : List String := ["gt", "gte", "lt", "lte"]

/-- The bounds as a document, without those that are not set. -/
def toJson (bounds : Bounds) : Json :=
  let member (name : String) (bound? : Option IndexValue) : List (String × Json) :=
    bound?.toList.map fun bound => (name, bound.toJson)
  .object (member "gt" bounds.above ++ member "gte" bounds.atLeast ++
    member "lt" bounds.below ++ member "lte" bounds.atMost)

/-- The bounds that a document stands for: an object without other members, or a list of the four
bounds in order of which some at the end may be left out. -/
def ofJson? (document : Json) : Option Bounds := do
  match document with
  | .object members => if members.any fun member => !fieldNames.contains member.1 then none
  | _ => pure ()
  match ← document.fields? fieldNames with
  | [above, atLeast, below, atMost] =>
    some {
      above := ← Json.optional? IndexValue.ofJson? above
      atLeast := ← Json.optional? IndexValue.ofJson? atLeast
      below := ← Json.optional? IndexValue.ofJson? below
      atMost := ← Json.optional? IndexValue.ofJson? atMost }
  | _ => none

end Bounds

/-- A constraint on one property. -/
inductive Constraint where
  | equal (value : IndexValue)
  | oneOf (values : List IndexValue)
  | within (bounds : Bounds)
  deriving DecidableEq

namespace Constraint

/-- Whether a constraint admits a value. -/
def admits (constraint : Constraint) (value : IndexValue) : Bool :=
  match constraint with
  | .equal expected => expected = value
  | .oneOf values => values.contains value
  | .within bounds => bounds.admits value

/-- Refuse a constraint that says nothing: a list without values or a range without bounds. -/
def validate (property : String) : Constraint → Except StoreError Unit
  | .oneOf [] => .error (.invalidQuery (.noValues property))
  | .within bounds =>
    if bounds.lower?.isNone && bounds.upper?.isNone then
      .error (.invalidQuery (.noBounds property))
    else .ok ()
  | _ => .ok ()

/-- The constraint as a document. -/
def toJson : Constraint → Json
  | .equal value => value.toJson
  | .oneOf values => .array (values.map IndexValue.toJson)
  | .within bounds => bounds.toJson

/-- The list of values that a document stands for. -/
def values? (document : Json) : Option (List IndexValue) := do
  (← document.array?).mapM IndexValue.ofJson?

/-- The constraint that a document stands for: a value, else a list of values, else bounds. -/
def ofJson? (document : Json) : Option Constraint :=
  (IndexValue.ofJson? document).map .equal <|>
    (values? document).map .oneOf <|>
      (Bounds.ofJson? document).map .within

end Constraint

/-- The constraints of a filter, in the order of the property names. -/
abbrev Filter := OrderedMap String Constraint

namespace Filter

/-- Whether an item with these properties satisfies every constraint. -/
def matchesItem (filter : Filter) (properties : Properties) : Bool :=
  filter.toList.all fun entry =>
    match properties.find? entry.1 with
    | some value => entry.2.admits value
    | none => false

/-- Whether any filter admits the item; the empty list admits every item. -/
def anyMatches (filters : List Filter) (properties : Properties) : Bool :=
  filters.isEmpty || filters.any fun filter => filter.matchesItem properties

/-- Refuse a filter with a constraint that says nothing. -/
def validate (filter : Filter) : Except StoreError Unit :=
  filter.toList.forM fun entry => entry.2.validate entry.1

/-- Refuse the first constraint that says nothing, filter by filter. -/
def validateAll (filters : List Filter) : Except StoreError Unit := filters.forM validate

/-- The filter as a document. -/
def toJson (filter : Filter) : Json :=
  .object (filter.toList.map fun entry => (entry.1, entry.2.toJson))

/-- The filter that a document stands for. -/
def ofJson? (document : Json) : Option Filter := do
  let members ← document.object?
  let entries ← members.mapM fun member => (Constraint.ofJson? member.2).map (member.1, ·)
  some (OrderedMap.ofList entries)

/-- The list of filters that a document stands for. -/
def listOfJson? (document : Json) : Option (List Filter) := do
  (← document.array?).mapM ofJson?

end Filter

end TenantStore
