import TenantStore.Query.Filter
import TenantStore.Table.Column

/-!
# Filters as conditions on rows

A list of filters becomes a condition on the columns of a row: alternatives, each of which is a
conjunction of terms.  A condition is written as a statement's text, in which every value is a
question mark, and the values in the order of their marks.  Conditions that nest too deeply or have
too many marks cannot stand in a statement; how deeply one is nested depends on the order of its
alternatives.

A column may be empty, so a condition is true, false or unknown.  A comparison with an empty column
is unknown; a conjunction is false if a part is false, else unknown if a part is; alternatives are
true if one is true, else unknown if one is.
-/

namespace TenantStore

/-- The comparisons of a range. -/
inductive Comparator where
  | greater
  | greaterOrEqual
  | less
  | lessOrEqual
  deriving DecidableEq, Repr

/-- The kinds of values, which the text in a column shows by its beginning. -/
inductive ValueKind where
  | text
  | boolean
  | integer
  deriving DecidableEq, Repr

/-- A comparison of a column with a value, which holds only for values of the same kind. -/
structure Comparison where
  kind : ValueKind
  comparator : Comparator
  value : String
  deriving DecidableEq, Repr

/-- A condition on one column. -/
inductive Term where
  | equals (column value : String)
  | among (column : String) (values : List String)
  | compares (column : String) (comparisons : List Comparison)
  deriving DecidableEq, Repr

/-- Alternatives of conjunctions of terms. -/
structure Condition where
  alternatives : List (List Term)
  deriving DecidableEq, Repr

namespace Comparator

/-- The operator in the text of a statement. -/
def symbol : Comparator → String
  | .greater => ">"
  | .greaterOrEqual => ">="
  | .less => "<"
  | .lessOrEqual => "<="

/-- Whether a comparison of the column with the value satisfies the comparator. -/
def accepts : Comparator → Ordering → Bool
  | .greater, ordering => ordering == .gt
  | .greaterOrEqual, ordering => ordering != .lt
  | .less, ordering => ordering == .lt
  | .lessOrEqual, ordering => ordering != .gt

end Comparator

namespace ValueKind

/-- The kind of a value. -/
def of : IndexValue → ValueKind
  | .text _ => .text
  | .boolean _ => .boolean
  | .integer _ => .integer

/-- The text of the condition that a column holds a value of the kind. -/
def guardText (kind : ValueKind) (column : String) : String :=
  match kind with
  | .text => "substr(" ++ column ++ ", 1, 1) = '\"'"
  | .boolean => column ++ " IN ('true', 'false')"
  | .integer => "(" ++ column ++ " GLOB '[0-9]*' OR " ++ column ++ " GLOB '!*')"

/-- How deeply the condition that a column holds a value of the kind is nested. -/
def guardDepth : ValueKind → Nat
  | .text => 3
  | .boolean => 2
  | .integer => 3

/-- Whether a text satisfies the condition that a column holds a value of the kind. -/
def admits (kind : ValueKind) (text : String) : Bool :=
  match kind with
  | .text => text.toList.head? == some '"'
  | .boolean => text == "true" || text == "false"
  | .integer =>
    match text.toList.head? with
    | some character => character.isDigit || character == '!'
    | none => false

end ValueKind

/-- The conjunction of truth values, of which some may be unknown. -/
def Truth.all (parts : List (Option Bool)) : Option Bool :=
  if parts.contains (some false) then some false
  else if parts.contains none then none
  else some true

/-- The disjunction of truth values, of which some may be unknown. -/
def Truth.any (parts : List (Option Bool)) : Option Bool :=
  if parts.contains (some true) then some true
  else if parts.contains none then none
  else some false

namespace Term

/-- The comparisons that bounds stand for. -/
def comparisons (bounds : Bounds) : List Comparison :=
  let comparison (comparator : Comparator) (bound? : Option IndexValue) : List Comparison :=
    bound?.toList.map fun bound => ⟨.of bound, comparator, bound.sortText⟩
  comparison .greater bounds.above ++ comparison .greaterOrEqual bounds.atLeast ++
    comparison .less bounds.below ++ comparison .lessOrEqual bounds.atMost

/-- The term that a constraint on a column stands for. -/
def ofConstraint (column : String) : Constraint → Term
  | .equal value => .equals column value.sortText
  | .oneOf values => .among column (values.map IndexValue.sortText)
  | .within bounds => .compares column (comparisons bounds)

/-- A term as it is written, with a placeholder for each parameter. -/
def text : Term → String
  | .equals column _ => column ++ " = ?"
  | .among column values =>
    column ++ " IN (" ++ ", ".intercalate (values.map fun _ => "?") ++ ")"
  | .compares column comparisons =>
    " AND ".intercalate (comparisons.flatMap fun comparison =>
      [comparison.kind.guardText column, column ++ " " ++ comparison.comparator.symbol ++ " ?"])

/-- The values of a term, in the order of their marks. -/
def parameters : Term → List String
  | .equals _ value => [value]
  | .among _ values => values
  | .compares _ comparisons => comparisons.map Comparison.value

/-- How deeply each part of a term is nested.  A choice of one value is a comparison with the value
behind a sign, one level deeper than other comparisons. -/
def partDepths : Term → List Nat
  | .equals _ _ => [2]
  | .among _ values => [if values.length = 1 then 3 else 2]
  | .compares _ comparisons =>
    comparisons.flatMap fun comparison => [comparison.kind.guardDepth, 2]

/-- The truth of a term on a row, of which `cell` gives the columns. -/
def truth (cell : String → Option String) : Term → Option Bool
  | .equals column value => (cell column).map (· == value)
  | .among column values => if values.isEmpty then some false else (cell column).map values.contains
  | .compares column comparisons =>
    Truth.all (comparisons.flatMap fun comparison =>
      [(cell column).map comparison.kind.admits,
        (cell column).map fun text =>
          comparison.comparator.accepts
            (Bytes.compare (Text.bytes text) (Text.bytes comparison.value))])

end Term

namespace Condition

/-- The terms of a filter, if all its properties have columns. -/
def termsOf (filter : Filter) : Except StoreError (List Term) :=
  filter.toList.mapM fun entry => do
    pure (.ofConstraint (← Column.ofProperty entry.1) entry.2)

/-- The alternatives of filters, or none as soon as a filter admits every row. -/
def alternativesOf : List Filter → Except StoreError (Option (List (List Term)))
  | [] => .ok (some [])
  | filter :: rest =>
    if filter.isEmpty then .ok none
    else do
      let terms ← termsOf filter
      pure ((← alternativesOf rest).map (terms :: ·))

/-- The condition that any of the filters admits a row; there is none if every row is admitted. -/
def ofFilters (filters : List Filter) : Except StoreError (Option Condition) :=
  if filters.isEmpty then .ok none
  else (alternativesOf filters).map fun alternatives? => alternatives?.map Condition.mk

/-- A condition as it is written: the alternatives in brackets, joined by `OR`. -/
def text (condition : Condition) : String :=
  " OR ".intercalate (condition.alternatives.map fun terms =>
    "(" ++ " AND ".intercalate (terms.map Term.text) ++ ")")

/-- The values of a condition, in the order of their marks. -/
def parameters (condition : Condition) : List String :=
  condition.alternatives.flatMap fun terms => terms.flatMap Term.parameters

/-- How deeply parts are nested once they are joined from the left by an operator of two sides. -/
def joinedDepth : List Nat → Nat
  | [] => 0
  | first :: rest => rest.foldl (fun joined part => max joined part + 1) first

/-- How deeply a condition is nested: a name or a value is one level deep, and an operator one more
than the deepest of what it joins. -/
def depth (condition : Condition) : Nat :=
  joinedDepth (condition.alternatives.map fun terms => joinedDepth (terms.flatMap Term.partDepths))

/-- The greatest depth of a statement. -/
def greatestDepth : Nat := 1000

/-- The greatest number of parameters of a statement. -/
def greatestParameterCount : Nat := 32766

/-- Whether a condition can stand in a statement, joined to one that is `outerDepth` deep and has
`outerParameters` parameters of its own. -/
def fits (condition : Condition) (outerDepth outerParameters : Nat) : Bool :=
  max outerDepth condition.depth + 1 ≤ greatestDepth &&
    outerParameters + condition.parameters.length ≤ greatestParameterCount

/-- The truth of a condition on a row, of which `cell` gives the columns. -/
def truth (cell : String → Option String) (condition : Condition) : Option Bool :=
  Truth.any (condition.alternatives.map fun terms => Truth.all (terms.map (Term.truth cell)))

/-- Whether a row is selected: the condition is true, neither false nor unknown. -/
def selects (condition : Condition) (cell : String → Option String) : Bool :=
  condition.truth cell == some true

end Condition

end TenantStore
