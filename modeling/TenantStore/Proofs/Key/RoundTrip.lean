import Mathlib.Data.List.Basic
import Mathlib.Tactic.Common
import TenantStore.Key.Scope
import TenantStore.Proofs.Key.Order

/-!
# Keys read back

The first segment of a key ends where its writing ended, whatever follows, so a key gives back the
segments that it was made of, and below a scope those of its leaf.  Nothing else is read: bytes that
give segments are the writing of these segments, and the writing keeps their order.
-/

namespace TenantStore

namespace Key

/-- A segment is read back in front of any bytes. -/
theorem split?_encodeSegment_append (segment rest : Bytes) :
    split? (encodeSegment segment ++ rest) = some (segment, rest) := by
  induction segment with
  | nil => simp [encodeSegment, split?]
  | cons byte segment ih =>
      by_cases zero : byte = 0
      · simp [encodeSegment, split?, zero, ih]
      · rw [encodeSegment, if_neg zero, List.cons_append, split?.eq_def]
        simp only [zero, if_false, ih]
        rfl

/-- A key is read back. -/
theorem decode?_encode (segments : List Bytes) : decode? (encode segments) = some segments := by
  induction segments with
  | nil => simp [decode?, encode]
  | cons segment segments ih =>
      have nonempty : (encode (segment :: segments)).isEmpty = false := by
        rw [encode_cons, List.isEmpty_eq_false_iff]
        exact List.append_ne_nil_of_left_ne_nil (encodeSegment_ne_nil segment) _
      have first : split? (encode (segment :: segments)) = some (segment, encode segments) := by
        rw [encode_cons, split?_encodeSegment_append]
      rw [decode?, nonempty]
      simp only [Bool.false_eq_true, if_false]
      split
      · rename_i none
        rw [first] at none
        cases none
      · rename_i found
        rw [first] at found
        cases found
        rw [ih]
        rfl

theorem decode_encode (segments : List Bytes) : decode (encode segments) = .ok segments := by
  rw [decode, decode?_encode]

/-- What is read as a segment and a rest is the writing of the segment with the rest behind it. -/
theorem eq_encodeSegment_append_of_split? {key segment rest : Bytes}
    (found : split? key = some (segment, rest)) : encodeSegment segment ++ rest = key := by
  fun_induction split? key generalizing segment rest with
  | case1 => cases found
  | case2 => cases found
  | case3 tail ih =>
      rcases Option.map_eq_some_iff.1 found with ⟨⟨inner, after⟩, splits, same⟩
      cases same
      rw [encodeSegment, if_pos rfl, List.cons_append, List.cons_append, ih splits]
  | case4 tail => cases found; rfl
  | case5 => cases found
  | case6 byte tail nonzero ih =>
      rcases Option.map_eq_some_iff.1 found with ⟨⟨inner, after⟩, splits, same⟩
      cases same
      rw [encodeSegment, if_neg nonzero, List.cons_append, ih splits]

theorem split_eq_ok_iff {key segment rest : Bytes} :
    split key = .ok (segment, rest) ↔ encodeSegment segment ++ rest = key := by
  constructor
  · intro reads
    rw [split] at reads
    split at reads
    · rename_i parts found
      cases reads
      exact eq_encodeSegment_append_of_split? found
    · cases reads
  · rintro rfl
    rw [split, split?_encodeSegment_append]

/-- What is read as some segments is their writing. -/
theorem eq_encode_of_decode? {key : Bytes} {segments : List Bytes}
    (found : decode? key = some segments) : encode segments = key := by
  fun_induction decode? key generalizing segments with
  | case1 key empty =>
      cases found
      exact (List.isEmpty_iff.1 empty).symm
  | case2 => cases found
  | case3 key _ segment rest splits _ ih =>
      rcases Option.map_eq_some_iff.1 found with ⟨later, reads, rfl⟩
      rw [encode_cons, ih reads, eq_encodeSegment_append_of_split? splits]

/-- A key is read as some segments exactly if it is their writing. -/
theorem decode_eq_ok_iff {key : Bytes} {segments : List Bytes} :
    decode key = .ok segments ↔ encode segments = key := by
  constructor
  · intro reads
    rw [decode] at reads
    split at reads
    · rename_i read found
      cases reads
      exact eq_encode_of_decode? found
    · cases reads
  · rintro rfl
    exact decode_encode segments

/-- Keys correspond to the sequences of their segments: they compare alike, and a key is read,
segment by segment or as a whole, exactly as what it was written from. -/
theorem keys_correspond_to_segments :
    (∀ first second, compare (encode first) (encode second) = compare first second) ∧
      (∀ key segment rest, split key = .ok (segment, rest) ↔ encodeSegment segment ++ rest = key) ∧
        ∀ key segments, decode key = .ok segments ↔ encode segments = key :=
  ⟨compare_encode, fun _ _ _ => split_eq_ok_iff, fun _ _ => decode_eq_ok_iff⟩

end Key

namespace Scope

variable {scope : Scope}

theorem strip?_keyOf (leaf : List Bytes) :
    scope.strip? (scope.keyOf leaf) = some (Key.encode leaf) := by
  rw [strip?, keyOf, if_pos (List.isPrefixOf_iff_prefix.2 (List.prefix_append _ _)), List.drop_left]

/-- The segments of a key below the scope are those that it was made of. -/
theorem leafSegments_keyOf (leaf : List Bytes) :
    scope.leafSegments (scope.keyOf leaf) = .ok leaf := by
  rw [leafSegments, strip?_keyOf]
  exact Key.decode_encode leaf

end Scope

end TenantStore
