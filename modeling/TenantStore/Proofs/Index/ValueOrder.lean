import Mathlib.Data.List.Basic
import Mathlib.Tactic.Common
import TenantStore.Proofs.Index.Narrowing
import TenantStore.Proofs.Table.Conditions

/-!
# The order of values in keys

A forward entry lies behind its partition at the bytes of a value, followed by an identifier.
Escaping the segments of a key keeps the order of the bytes, and the bytes of values of one kind
keep the order of the values, so entries of one property are met in the order of its values and then
of the identifiers.
-/

namespace TenantStore

namespace Bytes

/-- Bytes compare as lists of numbers do. -/
theorem compare_eq_ordCompare (first second : Bytes) :
    Bytes.compare first second = Ord.compare first second := by
  have below (one other : Bytes) : Ord.compare one other = .lt ↔ one < other :=
    Key.compare_eq_lt_iff (fun _ _ => Std.compare_eq_lt) one other
  cases order : Ord.compare first second with
  | lt => exact compare_of_lt ((below first second).1 order)
  | eq =>
      rw [Std.LawfulEqOrd.compare_eq_iff_eq] at order
      rw [order, compare_self]
  | gt =>
      rw [Std.OrientedCmp.gt_iff_lt] at order
      exact compare_of_gt ((below second first).1 order)

end Bytes

namespace IndexValue

/-- Values compare exactly if they are of one kind, and then as their bytes do. -/
theorem compare?_eq (first second : IndexValue) :
    first.compare? second =
      if ValueKind.of first = ValueKind.of second then
        some (Ord.compare first.sortBytes second.sortBytes)
      else none := by
  cases compared : first.compare? second with
  | none =>
      have different : ¬ValueKind.of first = ValueKind.of second := by
        rw [← ValueKind.isSome_compare?_iff, compared]
        exact Bool.false_ne_true
      rw [if_neg different]
  | some ordering =>
      have same : ValueKind.of first = ValueKind.of second := by
        rw [← ValueKind.isSome_compare?_iff, compared]
        rfl
      rw [if_pos same, ← compare_sortBytes compared, Bytes.compare_eq_ordCompare]

theorem sortText_injective : Function.Injective sortText := fun _ _ => sortText_inj.1

/-- The segments of an entry compare first by the value and then by the identifier. -/
theorem compare_place (first second : IndexValue) (item other : String) :
    Ord.compare (first.place item) (second.place other) =
      (Ord.compare first.sortBytes second.sortBytes).then
        (Ord.compare (Text.bytes item) (Text.bytes other)) := by
  simp only [place, List.compare_cons_cons, List.compare_nil_nil, Ordering.then_eq]

/-- Values are written in order: those of one kind compare as their bytes do, no two values have the
same text, and behind any path the keys of values and identifiers compare as the pairs of both. -/
theorem keys_are_in_order :
    (∀ first second : IndexValue, first.compare? second =
        if ValueKind.of first = ValueKind.of second then
          some (Ord.compare first.sortBytes second.sortBytes)
        else none) ∧
      Function.Injective sortText ∧
      (∀ (first second : IndexValue) (item other : String),
        Ord.compare (Key.encode [first.sortBytes, Text.bytes item])
            (Key.encode [second.sortBytes, Text.bytes other]) =
          (Ord.compare first.sortBytes second.sortBytes).then
            (Ord.compare (Text.bytes item) (Text.bytes other))) ∧
      ∀ (index : ItemIndex) (tenant property : String) (first second : IndexValue)
        (item other : String),
        Ord.compare (index.forwardKey tenant property first item)
            (index.forwardKey tenant property second other) =
          (Ord.compare first.sortBytes second.sortBytes).then
            (Ord.compare (Text.bytes item) (Text.bytes other)) := by
  refine ⟨compare?_eq, sortText_injective, ?_, ?_⟩
  · intro first second item other
    rw [Key.compare_encode]
    exact compare_place first second item other
  · intro index tenant property first second item other
    rw [ItemIndex.forwardKey, ItemIndex.forwardKey, Scope.keyOf, Scope.keyOf,
      ← Bytes.compare_eq_ordCompare, Bytes.compare_append_left, Bytes.compare_eq_ordCompare,
      Key.compare_encode]
    exact compare_place first second item other

end IndexValue

end TenantStore
