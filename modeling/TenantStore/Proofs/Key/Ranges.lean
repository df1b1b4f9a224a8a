import Mathlib.Data.List.Basic
import Mathlib.Order.Bounds.Defs
import Mathlib.Tactic.Common
import TenantStore.Proofs.Key.Order

/-!
# What ranges hold

The range of a scope holds exactly the keys that begin with its location, because the least string
above all that begin with a string separates them from everything larger.  Raising the start or
lowering the stop of a range intersects it with a half-line, and a range holds nothing exactly if
its bounds leave no room.
-/

namespace TenantStore

namespace Key

theorem lt_succ_iff {byte other : UInt8} (room : byte < 0xFF) :
    other < byte + 1 ↔ other < byte ∨ other = byte := by
  rw [UInt8.lt_iff_toNat_lt] at room ⊢
  rw [UInt8.lt_iff_toNat_lt, ← UInt8.toNat_inj, UInt8.toNat_add]
  have : (0xFF : UInt8).toNat = 255 := rfl
  have : (1 : UInt8).toNat = 1 := rfl
  omega

theorem eq_of_not_lt_max {byte : UInt8} (noRoom : ¬byte < 0xFF) : byte = 0xFF := by
  rw [UInt8.lt_iff_toNat_lt] at noRoom
  have := byte.toNat_lt
  have : (0xFF : UInt8).toNat = 255 := rfl
  rw [← UInt8.toNat_inj]
  omega

/-- Of a string that consists of the largest byte alone, everything not below it is a
continuation. -/
theorem isPrefix_of_pastAll?_eq_none {start : Bytes} (none : pastAll? start = none) (key : Bytes) :
    key < start ∨ start <+: key := by
  induction start generalizing key with
  | nil => exact Or.inr List.nil_prefix
  | cons byte rest ih =>
      simp only [pastAll?] at none
      split at none
      · cases none
      · rename_i restNone
        split at none
        · cases none
        · rename_i noRoom
          have largest := eq_of_not_lt_max noRoom
          subst largest
          cases key with
          | nil => simp
          | cons other key =>
              by_cases room : other < 0xFF
              · exact Or.inl (List.cons_lt_cons_iff.2 (Or.inl room))
              · rw [eq_of_not_lt_max room]
                rcases ih restNone key with below | begins
                · exact Or.inl (List.cons_lt_cons_iff.2 (Or.inr ⟨rfl, below⟩))
                · exact Or.inr (List.cons_prefix_cons.2 ⟨rfl, begins⟩)

/-- Below the least string above all that begin with `start` lie those that begin with it and those
below it. -/
theorem lt_pastAll?_iff {start past key : Bytes} (found : pastAll? start = some past) :
    key < past ↔ key < start ∨ start <+: key := by
  induction start generalizing past key with
  | nil => simp [pastAll?] at found
  | cons byte rest ih =>
      simp only [pastAll?] at found
      split at found
      · rename_i later restFound
        cases found
        cases key with
        | nil => simp
        | cons other key =>
            rw [List.cons_lt_cons_iff, List.cons_lt_cons_iff, List.cons_prefix_cons, ih restFound]
            grind
      · rename_i restNone
        split at found
        · rename_i room
          cases found
          cases key with
          | nil => simp
          | cons other key =>
              have beyond := isPrefix_of_pastAll?_eq_none restNone key
              rw [List.cons_lt_cons_iff, List.cons_lt_cons_iff, List.cons_prefix_cons,
                lt_succ_iff room]
              simp only [List.not_lt_nil, and_false, or_false]
              grind
        · cases found

theorem not_lt_of_isPrefix {start key : Bytes} (begins : start <+: key) : ¬key < start := by
  induction start generalizing key with
  | nil => simp
  | cons byte rest ih =>
      cases key with
      | nil => simp at begins
      | cons other key =>
          rw [List.cons_prefix_cons] at begins
          rw [List.cons_lt_cons_iff, not_or, not_and]
          refine ⟨?_, fun _ => ih begins.2⟩
          rw [begins.1]
          exact Std.lt_irrefl

/-- What lies above all strings that begin with `start` neither lies below `start` nor begins with
it. -/
theorem not_lt_of_bounds {start bound : Bytes} (bounds : ∀ key, start <+: key → key < bound) :
    ¬(bound < start ∨ start <+: bound) := by
  rintro (below | begins)
  · exact KeyOrder.irrefl _ (KeyOrder.trans _ _ _ (bounds start (List.prefix_refl start)) below)
  · exact KeyOrder.irrefl _ (bounds bound begins)

theorem isLeast_pastAll? {start past : Bytes} (found : pastAll? start = some past) :
    IsLeast {bound : Bytes | ∀ key, start <+: key → key < bound} past := by
  refine ⟨fun key begins => (lt_pastAll?_iff found).2 (.inr begins), fun bound bounds => ?_⟩
  rw [← List.not_lt, lt_pastAll?_iff found]
  exact not_lt_of_bounds bounds

/-- What is found is the least string above all that begin with `start`. -/
theorem pastAll?_eq_some_iff {start past : Bytes} :
    pastAll? start = some past ↔
      IsLeast {bound : Bytes | ∀ key, start <+: key → key < bound} past := by
  constructor
  · exact isLeast_pastAll?
  · rintro ⟨bounds, least⟩
    cases found : pastAll? start with
    | none => exact absurd (isPrefix_of_pastAll?_eq_none found past) (not_lt_of_bounds bounds)
    | some other =>
        rcases isLeast_pastAll? found with ⟨otherBounds, otherLeast⟩
        have same := KeyOrder.eq_of_not_lt _ _ (List.not_lt.2 (least otherBounds))
          (List.not_lt.2 (otherLeast bounds))
        rw [same]

/-- Nothing is found exactly if no string lies above all that begin with `start`. -/
theorem pastAll?_eq_none_iff {start : Bytes} :
    pastAll? start = none ↔ ∀ bound : Bytes, ∃ key, start <+: key ∧ ¬key < bound := by
  constructor
  · intro found bound
    by_contra bounds
    simp only [not_exists, not_and, not_not] at bounds
    exact not_lt_of_bounds bounds (isPrefix_of_pastAll?_eq_none found bound)
  · intro unbounded
    cases found : pastAll? start with
    | none => rfl
    | some past =>
        rcases unbounded past with ⟨key, begins, notBelow⟩
        exact absurd ((lt_pastAll?_iff found).2 (.inr begins)) notBelow

/-- Above a key lies what does not lie below the key with a zero byte added. -/
theorem not_lt_next_iff (key other : Bytes) : ¬other < next key ↔ key < other := by
  induction key generalizing other with
  | nil =>
      cases other with
      | nil => simp [next]
      | cons byte rest => simp [next, List.cons_lt_cons_iff]
  | cons byte rest ih =>
      cases other with
      | nil => simp [next]
      | cons otherByte other =>
          have := ih other
          simp only [next, List.cons_append, List.cons_lt_cons_iff] at this ⊢
          grind

theorem isLeast_next (key : Bytes) : IsLeast {other : Bytes | key < other} (next key) := by
  refine ⟨(not_lt_next_iff key (next key)).1 (KeyOrder.irrefl _), fun other above => ?_⟩
  exact List.not_lt.1 ((not_lt_next_iff key other).2 above)

end Key

namespace KeyRange

theorem contains_iff {range : KeyRange} {key : Bytes} :
    range.contains key = true ↔
      ¬key < range.start ∧ ∀ stop, range.stop = some stop → key < stop := by
  cases stopped : range.stop with
  | none => simp [contains, stopped]
  | some stop => simp [contains, stopped]

theorem not_contains_of_isDegenerate {range : KeyRange} (degenerate : range.isDegenerate = true)
    (key : Bytes) : range.contains key = false := by
  rw [Bool.eq_false_iff, ne_eq, contains_iff]
  rintro ⟨notBelow, belowStop⟩
  unfold isDegenerate at degenerate
  split at degenerate
  · cases degenerate
  · rename_i stop stopped
    have above : ¬range.start < stop := by simpa using degenerate
    have below := belowStop stop stopped
    rcases Classical.em (range.start < key) with beyond | notBeyond
    · exact above (KeyOrder.trans _ _ _ beyond below)
    · rw [KeyOrder.eq_of_not_lt _ _ notBelow notBeyond] at below
      exact above below

/-- A range whose bounds leave room holds its start. -/
theorem isDegenerate_iff {range : KeyRange} :
    range.isDegenerate = true ↔ ∀ key, range.contains key = false := by
  refine ⟨not_contains_of_isDegenerate, fun empty => ?_⟩
  have startOutside := empty range.start
  unfold contains at startOutside
  unfold isDegenerate
  cases stopped : range.stop with
  | none => simp [stopped] at startOutside
  | some stop => simpa [stopped] using startOutside

/-- Raising the start of a range intersects it with the keys from there on. -/
theorem contains_startingAt {range : KeyRange} {start key : Bytes} :
    (range.startingAt start).contains key = true ↔
      range.contains key = true ∧ ¬key < start := by
  unfold startingAt
  split
  · rename_i raised
    rw [contains_iff, contains_iff]
    constructor
    · rintro ⟨notBelow, belowStop⟩
      refine ⟨⟨fun below => notBelow (KeyOrder.trans _ _ _ below raised), belowStop⟩, notBelow⟩
    · rintro ⟨⟨_, belowStop⟩, notBelow⟩
      exact ⟨notBelow, belowStop⟩
  · rename_i kept
    constructor
    · intro contained
      refine ⟨contained, fun below => ?_⟩
      have notBelow := (contains_iff.1 contained).1
      rcases Classical.em (range.start < key) with beyond | notBeyond
      · exact kept (KeyOrder.trans _ _ _ beyond below)
      · rw [KeyOrder.eq_of_not_lt _ _ notBelow notBeyond] at below
        exact kept below
    · exact And.left

/-- Lowering the stop of a range intersects it with the keys below it. -/
theorem contains_stoppingAt {range : KeyRange} {stop key : Bytes} :
    (range.stoppingAt stop).contains key = true ↔
      range.contains key = true ∧ key < stop := by
  unfold stoppingAt
  split
  · rename_i held stopped
    split
    · rename_i kept
      constructor
      · intro contained
        refine ⟨contained, ?_⟩
        have belowHeld := (contains_iff.1 contained).2 held stopped
        rcases Classical.em (held < stop) with lower | notLower
        · exact KeyOrder.trans _ _ _ belowHeld lower
        · rw [KeyOrder.eq_of_not_lt _ _ notLower kept] at belowHeld
          exact belowHeld
      · exact And.left
    · rename_i lowered
      have lower : stop < held := by simpa using lowered
      rw [contains_iff, contains_iff]
      simp only [stopped, Option.some.injEq, forall_eq']
      constructor
      · rintro ⟨notBelow, below⟩
        exact ⟨⟨notBelow, KeyOrder.trans _ _ _ below lower⟩, below⟩
      · rintro ⟨⟨notBelow, _⟩, below⟩
        exact ⟨notBelow, below⟩
  · rename_i unbounded
    rw [contains_iff, contains_iff]
    simp [unbounded]

end KeyRange

namespace Scope

/-- The part of a scope after `start` holds the keys that begin with the location and `start`. -/
theorem contains_rangeFrom_iff {scope : Scope} {start key : Bytes} :
    (scope.rangeFrom start).contains key = true ↔ scope.location ++ start <+: key := by
  rw [rangeFrom, KeyRange.contains_iff]
  constructor
  · rintro ⟨notBelow, belowStop⟩
    cases found : Key.pastAll? (scope.location ++ start) with
    | none => exact (Key.isPrefix_of_pastAll?_eq_none found key).resolve_left notBelow
    | some past =>
        exact ((Key.lt_pastAll?_iff found).1 (belowStop past found)).resolve_left notBelow
  · intro begins
    exact ⟨Key.not_lt_of_isPrefix begins,
      fun past found => (Key.lt_pastAll?_iff found).2 (Or.inr begins)⟩

/-- A scope holds the keys that begin with its location. -/
theorem contains_range_iff {scope : Scope} {key : Bytes} :
    scope.range.contains key = true ↔ scope.location <+: key := by
  rw [range, contains_rangeFrom_iff, List.append_nil]

theorem strip?_eq_some_iff {scope : Scope} {key rest : Bytes} :
    scope.strip? key = some rest ↔ scope.location ++ rest = key := by
  unfold strip?
  split
  · rename_i begins
    rcases List.isPrefixOf_iff_prefix.1 begins with ⟨later, rfl⟩
    rw [List.drop_left, Option.some.injEq, List.append_cancel_left_eq, eq_comm]
  · rename_i outside
    refine ⟨fun impossible => (Option.some_ne_none _ impossible.symm).elim, ?_⟩
    rintro rfl
    exact absurd (List.isPrefixOf_iff_prefix.2 (List.prefix_append _ _)) outside

/-- A scope holds the keys whose segments begin with its path. -/
theorem contains_encode_iff {scope : Scope} {segments : List Bytes} :
    scope.range.contains (Key.encode segments) = true ↔ scope.path <+: segments := by
  rw [contains_range_iff, location, Key.encode_isPrefix_iff]

/-- The part of a scope after `start` holds its keys whose rest begins with `start`. -/
theorem contains_rangeFrom_iff_strip? {scope : Scope} {start key : Bytes} :
    (scope.rangeFrom start).contains key = true ↔
      scope.range.contains key = true ∧ ∃ rest, scope.strip? key = some rest ∧ start <+: rest := by
  simp only [contains_rangeFrom_iff, contains_range_iff, strip?_eq_some_iff]
  constructor
  · rintro ⟨later, rfl⟩
    rw [List.append_assoc]
    exact ⟨List.prefix_append _ _, start ++ later, rfl, List.prefix_append _ _⟩
  · rintro ⟨_, rest, rfl, begins⟩
    exact (List.prefix_append_right_inj _).2 begins

@[simp]
theorem location_child (scope : Scope) (name : Bytes) :
    (scope.child name).location = scope.location ++ Key.encodeSegment name := by
  simp [location, child]

theorem keyOf_eq_encode (scope : Scope) (leaf : List Bytes) :
    scope.keyOf leaf = Key.encode (scope.path ++ leaf) := by
  simp [keyOf, location]

/-- Partitions of different names share no key. -/
theorem not_contains_of_ne (scope : Scope) {name other : Bytes} (different : name ≠ other)
    {key : Bytes} (contained : (scope.child name).range.contains key = true) :
    (scope.child other).range.contains key = false := by
  rw [Bool.eq_false_iff]
  intro otherContained
  rw [contains_range_iff, location_child] at contained otherContained
  rcases contained with ⟨rest, same⟩
  rcases otherContained with ⟨otherRest, otherSame⟩
  rw [← otherSame, List.append_assoc, List.append_assoc] at same
  exact different (Key.encodeSegment_append_inj (List.append_cancel_left same)).1

theorem contains_of_contains_child {scope : Scope} {name key : Bytes}
    (contained : (scope.child name).range.contains key = true) :
    scope.range.contains key = true := by
  rw [contains_range_iff, location_child] at contained
  rw [contains_range_iff]
  exact (List.prefix_append _ _).trans contained

theorem contains_keyOf (scope : Scope) (leaf : List Bytes) :
    scope.range.contains (scope.keyOf leaf) = true := by
  rw [contains_range_iff]
  exact List.prefix_append _ _

end Scope

/-- Ranges are cut exactly: scopes hold the keys below their paths, the bounds that are computed for
them are the least ones, narrowing intersects, and what is refused as empty is what holds no key. -/
theorem ranges_are_exact :
    (∀ (scope : Scope) (segments : List Bytes),
        scope.range.contains (Key.encode segments) = true ↔ scope.path <+: segments) ∧
      (∀ (scope : Scope) (start key : Bytes), (scope.rangeFrom start).contains key = true ↔
        scope.range.contains key = true ∧ ∃ rest, scope.strip? key = some rest ∧ start <+: rest) ∧
      (∀ start past : Bytes, Key.pastAll? start = some past ↔
        IsLeast {bound : Bytes | ∀ key, start <+: key → key < bound} past) ∧
      (∀ start : Bytes, Key.pastAll? start = none ↔
        ∀ bound : Bytes, ∃ key, start <+: key ∧ ¬key < bound) ∧
      (∀ key : Bytes, IsLeast {other : Bytes | key < other} (Key.next key)) ∧
      (∀ (range : KeyRange) (start key : Bytes), (range.startingAt start).contains key = true ↔
        range.contains key = true ∧ start ≤ key) ∧
      (∀ (range : KeyRange) (stop key : Bytes), (range.stoppingAt stop).contains key = true ↔
        range.contains key = true ∧ key < stop) ∧
      ∀ range : KeyRange, range.isDegenerate = true ↔ ∀ key, range.contains key = false := by
  refine ⟨fun _ _ => Scope.contains_encode_iff, fun _ _ _ => Scope.contains_rangeFrom_iff_strip?,
    fun _ _ => Key.pastAll?_eq_some_iff, fun _ => Key.pastAll?_eq_none_iff, Key.isLeast_next, ?_,
    fun _ _ _ => KeyRange.contains_stoppingAt, fun _ => KeyRange.isDegenerate_iff⟩
  intro range start key
  rw [KeyRange.contains_startingAt, List.not_lt]

end TenantStore
