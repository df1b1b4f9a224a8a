import TenantStore.Json.Basic

/-!
# Records and choices in JSON

A record with named fields is written as an object, whose unknown members do not matter, or as a
list of the fields in their declared order.  A choice among names is written as the name, or as an
object with the name as its only member; what the member holds is nothing, and how nothing is
written depends on the format.
-/

namespace TenantStore.Json

/-- The documents of the declared fields, where given: no field is given twice in an object, and no
list is longer than the fields. -/
def fields? (names : List String) (document : Json) : Option (List (Option Json)) :=
  match document with
  | .object members =>
    if names.all fun name => (members.filter fun member => member.1 == name).length ≤ 1 then
      some (names.map fun name => lastMember? name members)
    else none
  | .array elements =>
    if elements.length ≤ names.length then
      some (elements.map some ++ List.replicate (names.length - elements.length) none)
    else none
  | _ => none

/-- The name that a choice is written with, given which documents stand for nothing. -/
def choice? (isNothing : Json → Bool) (document : Json) : Option String :=
  match document with
  | .text name => some name
  | .object [(name, held)] => if isNothing held then some name else none
  | _ => none

/-- Whether a document is null. -/
def isNull : Json → Bool
  | .null => true
  | _ => false

/-- Read an optional field: an absent one and null are none. -/
def optional? {α : Type} (read : Json → Option α) (field : Option Json) : Option (Option α) :=
  match field with
  | none => some none
  | some .null => some none
  | some document => (read document).map some

end TenantStore.Json
