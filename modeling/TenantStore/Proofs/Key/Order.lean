import Mathlib.Data.List.Basic
import Mathlib.Tactic.Common
import TenantStore.Key.Scope
import TenantStore.OrderedMap

/-!
# The order of keys

A written segment ends where no other byte of it can be taken for the end, and its end sorts below
every continuation.  So written segments, whatever follows them, compare as the segments do and then
as what follows, and the same holds of whole keys.  Equality and the beginnings of keys come out of
the same comparison: a key begins with the location of a scope exactly if its segments begin with
the path.
-/

namespace TenantStore

instance : KeyOrder (List Bytes) where
  irrefl _ := Std.lt_irrefl
  trans _ _ _ := Std.lt_trans
  eq_of_not_lt _ _ notBelow notAbove :=
    Std.le_antisymm (Std.not_lt.1 notAbove) (Std.not_lt.1 notBelow)

namespace Key

theorem pos_of_ne_zero {byte : UInt8} (nonzero : byte ≠ 0) : 0 < byte := by
  rw [UInt8.lt_iff_toNat_lt]
  have : byte.toNat ≠ 0 := fun same => nonzero (UInt8.toNat_inj.1 same)
  simpa using Nat.pos_of_ne_zero this

/-- Written segments compare as the segments do, and then as what follows them. -/
theorem encodeSegment_append_lt_iff (first second left right : Bytes) :
    encodeSegment first ++ left < encodeSegment second ++ right ↔
      first < second ∨ first = second ∧ left < right := by
  induction first generalizing second with
  | nil =>
      cases second with
      | nil => simp [encodeSegment]
      | cons byte rest =>
          by_cases zero : byte = 0
          · simp [encodeSegment, zero, List.cons_lt_cons_iff]
          · simp [encodeSegment, zero, List.cons_lt_cons_iff, pos_of_ne_zero zero]
  | cons byte rest ih =>
      cases second with
      | nil =>
          by_cases zero : byte = 0
          · simp [encodeSegment, zero, List.cons_lt_cons_iff]
          · simp [encodeSegment, zero, List.cons_lt_cons_iff]
      | cons other later =>
          by_cases zero : byte = 0 <;> by_cases otherZero : other = 0
          · simp [encodeSegment, zero, otherZero, ih]
          · have := pos_of_ne_zero otherZero
            simp [encodeSegment, zero, otherZero, List.cons_lt_cons_iff, this, Ne.symm otherZero]
          · simp [encodeSegment, zero, otherZero, List.cons_lt_cons_iff]
          · simp [encodeSegment, zero, otherZero, List.cons_lt_cons_iff, ih, and_assoc, or_assoc,
              and_or_left]

theorem encodeSegment_append_inj {first second left right : Bytes}
    (same : encodeSegment first ++ left = encodeSegment second ++ right) :
    first = second ∧ left = right := by
  have notBelow : ¬encodeSegment first ++ left < encodeSegment second ++ right := by
    rw [same]
    exact KeyOrder.irrefl _
  have notAbove : ¬encodeSegment second ++ right < encodeSegment first ++ left := by
    rw [same]
    exact KeyOrder.irrefl _
  rw [encodeSegment_append_lt_iff, not_or, not_and] at notBelow notAbove
  have segments := KeyOrder.eq_of_not_lt _ _ notBelow.1 notAbove.1
  exact ⟨segments, KeyOrder.eq_of_not_lt _ _ (notBelow.2 segments) (notAbove.2 segments.symm)⟩

@[simp]
theorem encode_nil : encode [] = [] := rfl

@[simp]
theorem encode_cons (segment : Bytes) (rest : List Bytes) :
    encode (segment :: rest) = encodeSegment segment ++ encode rest := rfl

@[simp]
theorem encode_append (front back : List Bytes) :
    encode (front ++ back) = encode front ++ encode back := by
  simp [encode]

theorem encodeSegment_ne_nil (segment : Bytes) : encodeSegment segment ≠ [] := by
  cases segment with
  | nil => simp [encodeSegment]
  | cons byte rest =>
      by_cases zero : byte = 0 <;> simp [encodeSegment, zero]

/-- What follows a common beginning decides how lists compare. -/
theorem append_lt_append_iff {α : Type} [LT α] [Std.Irrefl (fun first second : α => first < second)]
    (front first second : List α) : front ++ first < front ++ second ↔ first < second := by
  induction front with
  | nil => rfl
  | cons element front ih =>
      simp [ih]

/-- Keys compare as their sequences of segments. -/
theorem encode_lt_iff (first second : List Bytes) :
    encode first < encode second ↔ first < second := by
  induction first generalizing second with
  | nil =>
      cases second with
      | nil => simp
      | cons segment rest =>
          rcases List.exists_cons_of_ne_nil (encodeSegment_ne_nil segment)
            with ⟨byte, later, written⟩
          simp [written]
  | cons segment rest ih =>
      cases second with
      | nil => simp
      | cons other later =>
          rw [encode_cons, encode_cons, encodeSegment_append_lt_iff, ih, List.cons_lt_cons_iff]

/-- Lists compare below each other as the order of their elements says. -/
theorem compare_eq_lt_iff {α : Type} [Ord α] [LT α] [Std.LawfulEqOrd α]
    (agree : ∀ first second : α, compare first second = .lt ↔ first < second)
    (first second : List α) : compare first second = .lt ↔ first < second := by
  induction first generalizing second with
  | nil => cases second <;> simp [List.compare_nil_cons]
  | cons head first ih =>
      cases second with
      | nil => simp [List.compare_cons_nil]
      | cons other second =>
          rw [List.compare_cons_cons, Ordering.then_eq_lt, agree,
            Std.LawfulEqOrd.compare_eq_iff_eq, ih, List.cons_lt_cons_iff]

/-- The comparison of two keys is that of their sequences of segments. -/
theorem compare_encode (first second : List Bytes) :
    compare (encode first) (encode second) = compare first second := by
  have bytes (one other : Bytes) : compare one other = .lt ↔ one < other :=
    compare_eq_lt_iff (fun _ _ => Std.compare_eq_lt) one other
  have below (one other : List Bytes) :
      compare (encode one) (encode other) = .lt ↔ compare one other = .lt := by
    rw [bytes, encode_lt_iff, compare_eq_lt_iff bytes]
  cases order : compare first second with
  | lt => exact (below first second).2 order
  | eq =>
      rw [Std.LawfulEqOrd.compare_eq_iff_eq] at order ⊢
      rw [order]
  | gt =>
      rw [Std.OrientedCmp.gt_iff_lt] at order ⊢
      exact (below second first).2 order

/-- Whatever follows the segments `front` in a key is itself a sequence of segments. -/
theorem exists_of_encode_append_eq {front whole : List Bytes} {rest : Bytes}
    (same : encode front ++ rest = encode whole) :
    ∃ back, whole = front ++ back ∧ rest = encode back := by
  induction front generalizing whole with
  | nil => exact ⟨whole, rfl, by simpa using same⟩
  | cons segment front ih =>
      cases whole with
      | nil =>
          rw [encode_cons, List.append_assoc] at same
          exact absurd (List.append_eq_nil_iff.1 same).1 (encodeSegment_ne_nil segment)
      | cons other whole =>
          rw [encode_cons, encode_cons, List.append_assoc] at same
          rcases encodeSegment_append_inj same with ⟨rfl, rests⟩
          rcases ih rests with ⟨back, rfl, written⟩
          exact ⟨back, rfl, written⟩

theorem encode_injective {first second : List Bytes} (same : encode first = encode second) :
    first = second := by
  have padded : encode first ++ [] = encode second := by simpa using same
  rcases exists_of_encode_append_eq padded with ⟨back, rfl, written⟩
  cases back with
  | nil => simp
  | cons segment back =>
      exact absurd (List.append_eq_nil_iff.1 written.symm).1 (encodeSegment_ne_nil segment)

@[simp]
theorem encode_inj {first second : List Bytes} : encode first = encode second ↔ first = second :=
  ⟨encode_injective, congrArg encode⟩

/-- A key begins with the written form of some segments exactly if its segments begin with them. -/
theorem encode_isPrefix_iff {front whole : List Bytes} :
    encode front <+: encode whole ↔ front <+: whole := by
  constructor
  · rintro ⟨rest, same⟩
    rcases exists_of_encode_append_eq same with ⟨back, rfl, _⟩
    exact List.prefix_append front back
  · rintro ⟨back, rfl⟩
    rw [encode_append]
    exact List.prefix_append _ _

end Key

end TenantStore
