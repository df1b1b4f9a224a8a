import Mathlib.Data.List.Basic
import Mathlib.Tactic.Common
import TenantStore.Proofs.Index.Keys

/-!
# Narrowed ranges

A single filter that constrains the sort property narrows the range that a query goes through.  The
narrowed range lies in the scope of the property, and no item that the filter admits is lost: its
value respects the bounds, and the bytes of values of one kind compare as the values do.
-/

namespace TenantStore

/-- The segments by which an item is placed in the order of a property. -/
def IndexValue.place (value : IndexValue) (item : String) : List Bytes :=
  [value.sortBytes, Text.bytes item]

namespace Bounds

variable {bounds : Bounds} {value bound : IndexValue}

theorem not_lt_of_compare? {ordering : Ordering} (comparable : value.compare? bound = some ordering)
    (notLess : ordering ≠ .lt) : ¬value.sortBytes < bound.sortBytes := by
  intro below
  rw [← IndexValue.compare_sortBytes comparable, Bytes.compare_of_lt below] at notLess
  exact notLess rfl

theorem not_gt_of_compare? {ordering : Ordering} (comparable : value.compare? bound = some ordering)
    (notGreater : ordering ≠ .gt) : ¬bound.sortBytes < value.sortBytes := by
  intro above
  rw [← IndexValue.compare_sortBytes comparable, Bytes.compare_of_gt above] at notGreater
  exact notGreater rfl

/-- An admitted value does not lie below the lower bound, and above it if the bound is strict. -/
theorem lower_of_admits {closed : Bool} (admits : bounds.admits value = true)
    (lower : bounds.lower? = some (bound, closed)) :
    ¬value.sortBytes < bound.sortBytes ∧ (closed = false → bound.sortBytes < value.sortBytes) := by
  simp only [Bounds.admits, Bool.and_eq_true] at admits
  obtain ⟨⟨⟨above, atLeast⟩, _⟩, _⟩ := admits
  cases strict : bounds.above with
  | some other =>
      simp only [lower?, strict, Option.some.injEq, Prod.mk.injEq] at lower
      obtain ⟨rfl, rfl⟩ := lower
      cases comparable : value.compare? other with
      | none => simp [strict, comparable] at above
      | some ordering =>
          have greater : ordering = .gt := by simpa [strict, comparable] using above
          subst greater
          have compared := IndexValue.compare_sortBytes comparable
          exact ⟨not_lt_of_compare? comparable (by decide),
            fun _ => Bytes.lt_of_compare_eq_gt compared⟩
  | none =>
      cases least : bounds.atLeast with
      | none => simp [lower?, strict, least] at lower
      | some other =>
          simp only [lower?, strict, least, Option.some.injEq, Prod.mk.injEq] at lower
          obtain ⟨rfl, rfl⟩ := lower
          cases comparable : value.compare? other with
          | none => simp [least, comparable] at atLeast
          | some ordering =>
              have notLess : ordering ≠ .lt := by simpa [least, comparable] using atLeast
              exact ⟨not_lt_of_compare? comparable notLess, fun isStrict => by cases isStrict⟩

/-- An admitted value does not lie above the upper bound, and below it if the bound is strict. -/
theorem upper_of_admits {closed : Bool} (admits : bounds.admits value = true)
    (upper : bounds.upper? = some (bound, closed)) :
    ¬bound.sortBytes < value.sortBytes ∧ (closed = false → value.sortBytes < bound.sortBytes) := by
  simp only [Bounds.admits, Bool.and_eq_true] at admits
  obtain ⟨⟨_, below⟩, atMost⟩ := admits
  cases strict : bounds.below with
  | some other =>
      simp only [upper?, strict, Option.some.injEq, Prod.mk.injEq] at upper
      obtain ⟨rfl, rfl⟩ := upper
      cases comparable : value.compare? other with
      | none => simp [strict, comparable] at below
      | some ordering =>
          have less : ordering = .lt := by simpa [strict, comparable] using below
          subst less
          have compared := IndexValue.compare_sortBytes comparable
          exact ⟨not_gt_of_compare? comparable (by decide),
            fun _ => Bytes.lt_of_compare_eq_lt compared⟩
  | none =>
      cases most : bounds.atMost with
      | none => simp [upper?, strict, most] at upper
      | some other =>
          simp only [upper?, strict, most, Option.some.injEq, Prod.mk.injEq] at upper
          obtain ⟨rfl, rfl⟩ := upper
          cases comparable : value.compare? other with
          | none => simp [most, comparable] at atMost
          | some ordering =>
              have notGreater : ordering ≠ .gt := by simpa [most, comparable] using atMost
              exact ⟨not_gt_of_compare? comparable notGreater, fun isStrict => by cases isStrict⟩

end Bounds

namespace Scope

variable {scope : Scope} {value other : Bytes} {item : Bytes}

theorem keyOf_pair (scope : Scope) (value item : Bytes) :
    scope.keyOf [value, item] =
      scope.location ++ (Key.encodeSegment value ++ (Key.encodeSegment item ++ [])) := rfl

theorem keyOf_lt_location_child_iff :
    scope.keyOf [value, item] < (scope.child other).location ↔ value < other := by
  have segment := Key.encodeSegment_append_lt_iff value other (Key.encodeSegment item ++ []) []
  rw [List.append_nil (Key.encodeSegment other)] at segment
  rw [keyOf_pair, location_child, Key.append_lt_append_iff, segment]
  simp

theorem location_child_isPrefix_keyOf_iff :
    (scope.child other).location <+: scope.keyOf [value, item] ↔ other = value := by
  rw [keyOf_pair, location_child, List.prefix_append_right_inj]
  constructor
  · rintro ⟨rest, same⟩
    exact (Key.encodeSegment_append_inj same).1
  · rintro rfl
    exact List.prefix_append _ _

/-- What lies beyond all keys under a value: the keys under greater values. -/
theorem keyOf_lt_pastAll?_iff {past : Bytes}
    (found : Key.pastAll? (scope.child other).location = some past) :
    scope.keyOf [value, item] < past ↔ ¬other < value := by
  rw [Key.lt_pastAll?_iff found, keyOf_lt_location_child_iff, location_child_isPrefix_keyOf_iff]
  constructor
  · rintro (below | rfl)
    · exact fun above => KeyOrder.irrefl _ (KeyOrder.trans _ _ _ below above)
    · exact KeyOrder.irrefl _
  · intro notAbove
    by_cases below : value < other
    · exact Or.inl below
    · exact Or.inr (KeyOrder.eq_of_not_lt _ _ notAbove below)

end Scope

namespace ItemIndex

/-- The part of a range that a lower bound leaves. -/
def raised (scope : Scope) (range : KeyRange) : Option (IndexValue × Bool) → KeyRange
  | none => range
  | some (value, admitted) =>
    let position := (scope.child value.sortBytes).location
    if admitted then range.startingAt position
    else
      match Key.pastAll? position with
      | some past => range.startingAt past
      | none => range

/-- The part of a range that an upper bound leaves. -/
def lowered (scope : Scope) (range : KeyRange) : Option (IndexValue × Bool) → KeyRange
  | none => range
  | some (value, admitted) =>
    let position := (scope.child value.sortBytes).location
    if admitted then
      match Key.pastAll? position with
      | some past => range.stoppingAt past
      | none => range
    else range.stoppingAt position

theorem narrowedRange_within {scope : Scope} {filter : Filter} {sortProperty : String}
    {bounds : Bounds} (constrained : filter.find? sortProperty = some (.within bounds)) :
    narrowedRange scope [filter] sortProperty =
      lowered scope (raised scope scope.range bounds.lower?) bounds.upper? := by
  simp only [narrowedRange, constrained]
  cases bounds.lower? <;> cases bounds.upper? <;> rfl

variable {scope : Scope} {range : KeyRange} {bound? : Option (IndexValue × Bool)} {key : Bytes}

theorem contains_of_contains_raised (contained : (raised scope range bound?).contains key = true) :
    range.contains key = true := by
  unfold raised at contained
  split at contained
  · exact contained
  · dsimp only at contained
    split at contained
    · exact (KeyRange.contains_startingAt.1 contained).1
    · split at contained
      · exact (KeyRange.contains_startingAt.1 contained).1
      · exact contained

theorem contains_of_contains_lowered
    (contained : (lowered scope range bound?).contains key = true) :
    range.contains key = true := by
  unfold lowered at contained
  split at contained
  · exact contained
  · dsimp only at contained
    split at contained
    · split at contained
      · exact (KeyRange.contains_stoppingAt.1 contained).1
      · exact contained
    · exact (KeyRange.contains_stoppingAt.1 contained).1

theorem contains_raised {value : IndexValue} {item : String}
    (contained : range.contains (scope.keyOf (value.place item)) = true)
    (respects : ∀ bound closed, bound? = some (bound, closed) →
      ¬value.sortBytes < bound.sortBytes ∧ (closed = false → bound.sortBytes < value.sortBytes)) :
    (raised scope range bound?).contains (scope.keyOf (value.place item)) = true := by
  unfold raised
  split
  · exact contained
  · rename_i bound closed
    have allowed := respects bound closed rfl
    dsimp only
    split
    · rw [KeyRange.contains_startingAt, IndexValue.place, Scope.keyOf_lt_location_child_iff]
      exact ⟨contained, allowed.1⟩
    · rename_i isStrict
      split
      · rename_i past found
        rw [KeyRange.contains_startingAt, IndexValue.place, Scope.keyOf_lt_pastAll?_iff found]
        exact ⟨contained, fun notAbove => notAbove (allowed.2 (by simpa using isStrict))⟩
      · exact contained

theorem contains_lowered {value : IndexValue} {item : String}
    (contained : range.contains (scope.keyOf (value.place item)) = true)
    (respects : ∀ bound closed, bound? = some (bound, closed) →
      ¬bound.sortBytes < value.sortBytes ∧ (closed = false → value.sortBytes < bound.sortBytes)) :
    (lowered scope range bound?).contains (scope.keyOf (value.place item)) = true := by
  unfold lowered
  split
  · exact contained
  · rename_i bound closed
    have allowed := respects bound closed rfl
    dsimp only
    split
    · split
      · rename_i past found
        rw [KeyRange.contains_stoppingAt, IndexValue.place, Scope.keyOf_lt_pastAll?_iff found]
        exact ⟨contained, allowed.1⟩
      · exact contained
    · rename_i isStrict
      rw [KeyRange.contains_stoppingAt, IndexValue.place, Scope.keyOf_lt_location_child_iff]
      exact ⟨contained, allowed.2 (by simpa using isStrict)⟩

/-- A narrowed range lies in the scope. -/
theorem contains_of_contains_narrowedRange {filters : List Filter} {sortProperty : String}
    (contained : (narrowedRange scope filters sortProperty).contains key = true) :
    scope.range.contains key = true := by
  cases filters with
  | nil => exact contained
  | cons filter rest =>
      cases rest with
      | cons other rest => exact contained
      | nil =>
          cases constrained : filter.find? sortProperty with
          | none => simpa [narrowedRange, constrained] using contained
          | some constraint =>
              cases constraint with
              | equal value =>
                  simp only [narrowedRange, constrained] at contained
                  exact Scope.contains_of_contains_child contained
              | oneOf values => simpa [narrowedRange, constrained] using contained
              | within bounds =>
                  rw [narrowedRange_within constrained] at contained
                  exact contains_of_contains_raised (contains_of_contains_lowered contained)

theorem admits_of_matchesItem {filter : Filter} {properties : Properties} {property : String}
    {constraint : Constraint} {value : IndexValue} (matched : filter.matchesItem properties = true)
    (constrained : filter.find? property = some constraint)
    (carried : properties.find? property = some value) : constraint.admits value = true := by
  have member := OrderedMap.find?_eq_some_iff.1 constrained
  have one := List.all_eq_true.1 matched _ member
  simpa [carried] using one

/-- An admitted item lies in the narrowed range. -/
theorem narrowedRange_contains_of_anyMatches {filters : List Filter} {properties : Properties}
    {sortProperty : String} {value : IndexValue}
    (admitted : Filter.anyMatches filters properties = true)
    (carried : properties.find? sortProperty = some value) (item : String) :
    (narrowedRange scope filters sortProperty).contains (scope.keyOf (value.place item)) =
      true := by
  have inScope := scope.contains_keyOf (value.place item)
  cases filters with
  | nil => exact inScope
  | cons filter rest =>
      cases rest with
      | cons other rest => exact inScope
      | nil =>
          have matched : filter.matchesItem properties = true := by
            simpa [Filter.anyMatches] using admitted
          cases constrained : filter.find? sortProperty with
          | none => simpa [narrowedRange, constrained] using inScope
          | some constraint =>
              have admits := admits_of_matchesItem matched constrained carried
              cases constraint with
              | equal expected =>
                  have same : expected = value := by simpa [Constraint.admits] using admits
                  simp only [narrowedRange, constrained]
                  rw [Scope.contains_range_iff, IndexValue.place,
                    Scope.location_child_isPrefix_keyOf_iff, same]
              | oneOf values => simpa [narrowedRange, constrained] using inScope
              | within bounds =>
                  rw [narrowedRange_within constrained]
                  refine contains_lowered (contains_raised inScope ?_) ?_
                  · exact fun bound closed => Bounds.lower_of_admits admits
                  · exact fun bound closed => Bounds.upper_of_admits admits

end ItemIndex

end TenantStore
