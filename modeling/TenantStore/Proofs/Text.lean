import Mathlib.Data.List.Basic
import Mathlib.Tactic.Common
import TenantStore.Bytes

/-!
# The bytes of texts

The bytes of a text are those of its characters, one after the other, and different texts have
different bytes.  A character below 128 is one byte.
-/

namespace TenantStore.Text

@[simp]
theorem bytes_inj {first second : String} : bytes first = bytes second ↔ first = second :=
  ⟨bytes_injective, congrArg bytes⟩

@[simp]
theorem bytes_append (first second : String) :
    bytes (first ++ second) = bytes first ++ bytes second := by
  simp [bytes, String.toByteArray_append]

theorem bytes_ofList (characters : List Char) :
    bytes (String.ofList characters) = characters.flatMap String.utf8EncodeChar := by
  simp [bytes, List.utf8Encode]

/-- Characters below 128 are their own bytes. -/
theorem bytes_ofList_of_plain {characters : List Char}
    (plain : ∀ character ∈ characters, character.toNat < 128) :
    bytes (String.ofList characters) =
      characters.map fun character => UInt8.ofNat character.toNat := by
  rw [bytes_ofList]
  induction characters with
  | nil => rfl
  | cons character rest ih =>
      have small : character.val.toNat ≤ 127 := by
        have := plain character List.mem_cons_self
        exact Nat.le_of_lt_succ this
      have one : String.utf8EncodeChar character = [UInt8.ofNat character.toNat] := by
        simp only [String.utf8EncodeChar, small, if_true]
        rfl
      simp [one, ih fun other member => plain other (List.mem_cons_of_mem _ member)]

end TenantStore.Text
