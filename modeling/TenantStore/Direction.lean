/-!
# Directions

Scans and sorted queries run upwards or downwards.
-/

namespace TenantStore

/-- The direction of a scan or of a sorted query. -/
inductive Direction where
  | ascending
  | descending
  deriving DecidableEq, Repr

namespace Direction

/-- The name of a direction in documents. -/
def name : Direction → String
  | .ascending => "ascending"
  | .descending => "descending"

/-- The keyword of a direction in a statement. -/
def keyword : Direction → String
  | .ascending => "ASC"
  | .descending => "DESC"

/-- The direction that a word names. -/
def ofName? : String → Option Direction
  | "ascending" => some .ascending
  | "descending" => some .descending
  | _ => none

/-- An ascending list in the given direction. -/
def arrange {α : Type} (direction : Direction) (ascending : List α) : List α :=
  match direction with
  | .ascending => ascending
  | .descending => ascending.reverse

end Direction

end TenantStore
