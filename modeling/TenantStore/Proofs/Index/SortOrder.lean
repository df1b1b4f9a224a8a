import Mathlib.Data.List.Basic
import Mathlib.Tactic.Common
import TenantStore.Index.SortText
import TenantStore.Proofs.Json.RoundTrip
import TenantStore.Proofs.OrderedMap
import TenantStore.Proofs.Text

/-!
# The order of written values

Digit sequences of one length compare as their numbers do, and all integers of one sign are written
with the same number of digits.  So the bytes of two values of one kind compare as the values do,
and no two values, of one kind or of two, have the same bytes.
-/

namespace TenantStore

namespace Bytes

theorem compare_self (bytes : Bytes) : Bytes.compare bytes bytes = .eq := by
  simp [Bytes.compare, KeyOrder.irrefl bytes]

theorem eq_of_compare_eq {first second : Bytes} (same : Bytes.compare first second = .eq) :
    first = second := by
  unfold Bytes.compare at same
  split at same
  · cases same
  · split at same
    · cases same
    · rename_i notBelow notAbove
      exact KeyOrder.eq_of_not_lt _ _ notBelow notAbove

theorem compare_of_lt {first second : Bytes} (below : first < second) :
    Bytes.compare first second = .lt := by
  rw [Bytes.compare, if_pos below]

theorem compare_of_gt {first second : Bytes} (above : second < first) :
    Bytes.compare first second = .gt := by
  rw [Bytes.compare, if_neg fun below => KeyOrder.irrefl _ (KeyOrder.trans _ _ _ below above),
    if_pos above]

theorem lt_of_compare_eq_gt {first second : Bytes} (greater : Bytes.compare first second = .gt) :
    second < first := by
  unfold Bytes.compare at greater
  split at greater
  · cases greater
  · split at greater
    · assumption
    · cases greater

theorem lt_of_compare_eq_lt {first second : Bytes} (less : Bytes.compare first second = .lt) :
    first < second := by
  unfold Bytes.compare at less
  split at less
  · assumption
  · split at less <;> cases less

theorem compare_append_left (front first second : Bytes) :
    Bytes.compare (front ++ first) (front ++ second) = Bytes.compare first second := by
  induction front with
  | nil => rfl
  | cons byte front ih =>
      rw [← ih]
      simp [Bytes.compare]

end Bytes

namespace IndexValue

open Json (decimalValue decimalValue_toDigits)

/-- The bytes of digits. -/
def digitBytes (digits : List Char) : Bytes := digits.map fun digit => UInt8.ofNat digit.toNat

theorem digit_bounds {digit : Char} (isDigit : digit.isDigit = true) :
    48 ≤ digit.toNat ∧ digit.toNat ≤ 57 := by
  simp only [Char.isDigit, Bool.and_eq_true, decide_eq_true_eq, ge_iff_le, UInt32.le_iff_toNat_le]
    at isDigit
  exact isDigit

theorem digitByte_toNat {digit : Char} (isDigit : digit.isDigit = true) :
    (UInt8.ofNat digit.toNat).toNat = digit.toNat := by
  have := digit_bounds isDigit
  rw [UInt8.toNat_ofNat']
  omega

theorem foldl_digits_lt {first second : List Char} {low high : Nat} (below : low < high)
    (same : first.length = second.length)
    (firstDigits : ∀ digit ∈ first, digit.isDigit = true)
    (secondDigits : ∀ digit ∈ second, digit.isDigit = true) :
    first.foldl (fun value digit => value * 10 + (digit.toNat - 48)) low <
      second.foldl (fun value digit => value * 10 + (digit.toNat - 48)) high := by
  induction first generalizing second low high with
  | nil =>
      have := List.length_eq_zero_iff.1 same.symm
      subst this
      exact below
  | cons digit first ih =>
      cases second with
      | nil => simp at same
      | cons other second =>
          have := digit_bounds (firstDigits digit List.mem_cons_self)
          have := digit_bounds (secondDigits other List.mem_cons_self)
          rw [List.foldl_cons, List.foldl_cons]
          apply ih (by omega) (by simpa using same)
          · exact fun later member => firstDigits later (List.mem_cons_of_mem _ member)
          · exact fun later member => secondDigits later (List.mem_cons_of_mem _ member)

/-- Digits in equal number compare by their bytes as the numbers do that they stand for. -/
theorem digitBytes_lt_iff {first second : List Char} (same : first.length = second.length)
    (firstDigits : ∀ digit ∈ first, digit.isDigit = true)
    (secondDigits : ∀ digit ∈ second, digit.isDigit = true) :
    digitBytes first < digitBytes second ↔ decimalValue first < decimalValue second := by
  unfold decimalValue
  generalize 0 = start
  induction first generalizing second start with
  | nil =>
      have := List.length_eq_zero_iff.1 same.symm
      subst this
      simp [digitBytes]
  | cons digit first ih =>
      cases second with
      | nil => simp at same
      | cons other second =>
          have isDigit := firstDigits digit List.mem_cons_self
          have otherIsDigit := secondDigits other List.mem_cons_self
          have := digit_bounds isDigit
          have := digit_bounds otherIsDigit
          have shorter : first.length = second.length := by simpa using same
          have laterDigits : ∀ later ∈ first, later.isDigit = true :=
            fun later member => firstDigits later (List.mem_cons_of_mem _ member)
          have otherLaterDigits : ∀ later ∈ second, later.isDigit = true :=
            fun later member => secondDigits later (List.mem_cons_of_mem _ member)
          have unfolded : digitBytes (digit :: first) < digitBytes (other :: second) ↔
              digit.toNat < other.toNat ∨
                digit.toNat = other.toNat ∧ digitBytes first < digitBytes second := by
            simp only [digitBytes, List.map_cons, List.cons_lt_cons_iff, UInt8.lt_iff_toNat_lt,
              ← UInt8.toNat_inj, digitByte_toNat isDigit, digitByte_toNat otherIsDigit]
          rw [unfolded, List.foldl_cons, List.foldl_cons]
          rcases Nat.lt_trichotomy digit.toNat other.toNat with below | equal | above
          · have := foldl_digits_lt (show start * 10 + (digit.toNat - 48) <
              start * 10 + (other.toNat - 48) by omega) shorter laterDigits otherLaterDigits
            simp [below, this]
          · have := ih shorter laterDigits otherLaterDigits (start * 10 + (other.toNat - 48))
            simp [equal, this]
          · have := foldl_digits_lt (show start * 10 + (other.toNat - 48) <
              start * 10 + (digit.toNat - 48) by omega) shorter.symm otherLaterDigits laterDigits
            omega

/-- The digits of a number, filled with zeros in front. -/
def filledDigits (value : Nat) : List Char :=
  List.replicate (digitCount - (Nat.toDigits 10 value).length) '0' ++ Nat.toDigits 10 value

theorem isDigit_of_mem_filledDigits {value : Nat} {digit : Char}
    (member : digit ∈ filledDigits value) : digit.isDigit = true := by
  rcases List.mem_append.1 member with zero | significant
  · rw [List.eq_of_mem_replicate zero]
    rfl
  · exact Json.isDigit_of_mem significant

/-- Every number below `2 ^ 63` fits the digits. -/
theorem length_filledDigits {value : Nat} (small : value ≤ Int64.maxValue.toInt.toNat) :
    (filledDigits value).length = digitCount := by
  have bound : value < 10 ^ 19 := Nat.lt_of_le_of_lt small (by decide)
  have short := (Nat.length_toDigits_le_iff (by decide) (by decide)).2 bound
  simp only [filledDigits, List.length_append, List.length_replicate, digitCount]
  omega

theorem decimalValue_filledDigits (value : Nat) : decimalValue (filledDigits value) = value := by
  have zeros (count : Nat) (digits : List Char) :
      decimalValue (List.replicate count '0' ++ digits) = decimalValue digits := by
    induction count with
    | zero => rfl
    | succ count ih =>
        rw [← ih]
        rfl
  rw [filledDigits, zeros, decimalValue_toDigits]

theorem bytes_paddedDigits (value : Nat) :
    Text.bytes (paddedDigits value) = digitBytes (filledDigits value) := by
  apply Text.bytes_ofList_of_plain
  intro digit member
  have := digit_bounds (isDigit_of_mem_filledDigits member)
  omega

theorem paddedDigits_lt_iff {first second : Nat}
    (firstSmall : first ≤ Int64.maxValue.toInt.toNat)
    (secondSmall : second ≤ Int64.maxValue.toInt.toNat) :
    Text.bytes (paddedDigits first) < Text.bytes (paddedDigits second) ↔ first < second := by
  rw [bytes_paddedDigits, bytes_paddedDigits,
    digitBytes_lt_iff (by rw [length_filledDigits firstSmall, length_filledDigits secondSmall])
      (fun _ => isDigit_of_mem_filledDigits) (fun _ => isDigit_of_mem_filledDigits),
    decimalValue_filledDigits, decimalValue_filledDigits]

theorem compare_paddedDigits {first second : Nat}
    (firstSmall : first ≤ Int64.maxValue.toInt.toNat)
    (secondSmall : second ≤ Int64.maxValue.toInt.toNat) :
    Bytes.compare (Text.bytes (paddedDigits first)) (Text.bytes (paddedDigits second)) =
      Ord.compare first second := by
  simp only [Bytes.compare, paddedDigits_lt_iff firstSmall secondSmall,
    paddedDigits_lt_iff secondSmall firstSmall, Nat.compare_eq_ite_lt]

/-- The bytes of a number begin with a digit. -/
theorem bytes_paddedDigits_eq_cons {value : Nat} (small : value ≤ Int64.maxValue.toInt.toNat) :
    ∃ byte rest, Text.bytes (paddedDigits value) = byte :: rest ∧ 48 ≤ byte.toNat ∧
    byte.toNat ≤ 57 := by
  cases digits : filledDigits value with
  | nil =>
      have := length_filledDigits small
      rw [digits] at this
      cases this
  | cons digit rest =>
      have isDigit : digit.isDigit = true :=
        isDigit_of_mem_filledDigits (digits ▸ List.mem_cons_self)
      refine ⟨UInt8.ofNat digit.toNat, digitBytes rest, ?_, ?_⟩
      · rw [bytes_paddedDigits, digits]
        rfl
      · rw [digitByte_toNat isDigit]
        exact digit_bounds isDigit

/-- The mark of negative integers sorts below every digit. -/
theorem mark_lt_paddedDigits {value : Nat} (small : value ≤ Int64.maxValue.toInt.toNat)
    (rest : Bytes) : Text.bytes "!" ++ rest < Text.bytes (paddedDigits value) := by
  rcases bytes_paddedDigits_eq_cons small with ⟨byte, later, written, low, _⟩
  have mark : Text.bytes "!" = [33] := by decide
  have below : (33 : UInt8) < byte := by
    rw [UInt8.lt_iff_toNat_lt]
    exact Nat.lt_of_lt_of_le (by decide) low
  rw [written, mark]
  exact List.cons_lt_cons_iff.2 (Or.inl below)

theorem toInt_bounds (value : Int64) :
    Int64.minValue.toInt ≤ value.toInt ∧ value.toInt ≤ Int64.maxValue.toInt :=
  ⟨value.minValue_le_toInt, value.toInt_le⟩

/-- Written integers compare as the integers do. -/
theorem compare_integerText (first second : Int64) :
    Bytes.compare (Text.bytes (integerText first)) (Text.bytes (integerText second)) =
      Ord.compare first.toInt second.toInt := by
  have lowest : Int64.minValue.toInt = -9223372036854775808 := by decide
  have highest : Int64.maxValue.toInt = 9223372036854775807 := by decide
  have firstBounds := toInt_bounds first
  have secondBounds := toInt_bounds second
  unfold integerText
  split <;> split
  · rename_i firstNegative secondNegative
    rw [Text.bytes_append, Text.bytes_append, Bytes.compare_append_left,
      compare_paddedDigits (by omega) (by omega)]
    simp only [Nat.compare_eq_ite_lt, Int.compare_eq_ite_lt]
    grind
  · rename_i firstNegative secondPositive
    have above :=
      mark_lt_paddedDigits (show second.toInt.toNat ≤ Int64.maxValue.toInt.toNat by omega)
        (Text.bytes (paddedDigits (first.toInt - Int64.minValue.toInt).toNat))
    have less : first.toInt < second.toInt := by omega
    rw [Text.bytes_append, Bytes.compare_of_lt above, Int.compare_eq_ite_lt, if_pos less]
  · rename_i firstPositive secondNegative
    have above :=
      mark_lt_paddedDigits (show first.toInt.toNat ≤ Int64.maxValue.toInt.toNat by omega)
        (Text.bytes (paddedDigits (second.toInt - Int64.minValue.toInt).toNat))
    have greater : second.toInt < first.toInt := by omega
    rw [Text.bytes_append, Bytes.compare_of_gt above, Int.compare_eq_ite_lt,
      if_neg (Int.not_lt.2 (Int.le_of_lt greater)), if_pos greater]
  · rename_i firstPositive secondPositive
    rw [compare_paddedDigits (by omega) (by omega)]
    simp only [Nat.compare_eq_ite_lt, Int.compare_eq_ite_lt]
    grind

/-- The bytes of two values of one kind compare as the values do. -/
theorem compare_sortBytes {first second : IndexValue} {ordering : Ordering}
    (comparable : first.compare? second = some ordering) :
    Bytes.compare first.sortBytes second.sortBytes = ordering := by
  cases first with
  | boolean first =>
      cases second with
      | boolean second =>
          cases comparable
          cases first <;> cases second <;> decide
      | integer _ => cases comparable
      | text _ => cases comparable
  | integer first =>
      cases second with
      | boolean _ => cases comparable
      | integer second =>
          cases comparable
          exact compare_integerText first second
      | text _ => cases comparable
  | text first =>
      cases second with
      | boolean _ => cases comparable
      | integer _ => cases comparable
      | text second =>
          cases comparable
          rw [sortBytes, sortBytes, sortText, sortText, Text.bytes_append, Text.bytes_append,
            Bytes.compare_append_left]

/-- The byte that the bytes of a value begin with, which shows its kind. -/
theorem head?_sortBytes (value : IndexValue) :
    ∃ byte, value.sortBytes.head? = some byte ∧
      match value with
      | .text _ => byte = 34
      | .boolean _ => byte = 116 ∨ byte = 102
      | .integer _ => byte = 33 ∨ 48 ≤ byte.toNat ∧ byte.toNat ≤ 57 := by
  cases value with
  | text value =>
      have mark : Text.bytes "\"" = [34] := by decide
      exact ⟨34, by simp [sortBytes, sortText, mark], rfl⟩
  | boolean value =>
      cases value with
      | true => exact ⟨116, by decide, Or.inl rfl⟩
      | false => exact ⟨102, by decide, Or.inr rfl⟩
  | integer value =>
      have bounds := toInt_bounds value
      simp only [sortBytes, sortText, integerText]
      split
      · have mark : Text.bytes "!" = [33] := by decide
        exact ⟨33, by simp [mark], Or.inl rfl⟩
      · rcases bytes_paddedDigits_eq_cons
          (show value.toInt.toNat ≤ Int64.maxValue.toInt.toNat by omega)
          with ⟨byte, rest, written, isDigit⟩
        refine ⟨byte, ?_, Or.inr isDigit⟩
        rw [written]
        rfl

/-- No two values have the same bytes. -/
theorem sortBytes_injective {first second : IndexValue}
    (same : first.sortBytes = second.sortBytes) : first = second := by
  have equal {ordering : Ordering} (comparable : first.compare? second = some ordering) :
      ordering = .eq := by
    rw [← compare_sortBytes comparable, same, Bytes.compare_self]
  have heads := head?_sortBytes first
  have otherHeads := head?_sortBytes second
  rw [same] at heads
  rcases heads with ⟨byte, found, shows⟩
  rcases otherHeads with ⟨other, otherFound, otherShows⟩
  rw [found] at otherFound
  cases otherFound
  cases first with
  | boolean first =>
      cases second with
      | boolean second => cases first <;> cases second <;> first | rfl | cases equal rfl
      | integer second => rcases shows with rfl | rfl <;> simp at otherShows
      | text second => rcases shows with rfl | rfl <;> cases otherShows
  | integer first =>
      cases second with
      | boolean second => rcases otherShows with rfl | rfl <;> simp at shows
      | integer second =>
          have := compare_eq_iff_eq.1 (equal rfl)
          rw [Int64.toInt_inj.1 this]
      | text second =>
          cases otherShows
          simp at shows
  | text first =>
      cases second with
      | boolean second => rcases otherShows with rfl | rfl <;> cases shows
      | integer second =>
          cases shows
          simp at otherShows
      | text second =>
          have := Text.bytes_injective (Bytes.eq_of_compare_eq (equal rfl))
          rw [this]

@[simp]
theorem sortBytes_inj {first second : IndexValue} :
    first.sortBytes = second.sortBytes ↔ first = second :=
  ⟨sortBytes_injective, congrArg sortBytes⟩

end IndexValue

end TenantStore
