import Mathlib.Data.List.Basic
import Mathlib.Tactic.Common
import TenantStore.Proofs.Json.CborRoundTrip

/-!
# Documents that nest too deeply

A document that takes more than the budget of its reader is refused, wherever in it the costly part
stands.  Each item in front of that part is read to its end or is refused itself, so the reader
comes to the part or stops before it.  Among canonical documents the budget alone decides which are
read back.
-/

namespace TenantStore

namespace Cbor

/-- Items are not read in sequence if each of them is read to its end or refused, and one is
refused. -/
theorem readTimes_eq_none {α β : Type} {readOne : Reader β} {write : α → Bytes} {items : List α}
    {refused : α} (member : refused ∈ items)
    (refuses : ∀ rest, readOne (write refused ++ rest) = none)
    (reads : ∀ item ∈ items, ∀ rest, readOne (write item ++ rest) = none ∨
      ∃ found, readOne (write item ++ rest) = some (found, rest))
    (read : List β) (rest : Bytes) :
    readTimes readOne read items.length (items.flatMap write ++ rest) = none := by
  induction items generalizing read with
  | nil => cases member
  | cons item items ih =>
      simp only [List.flatMap_cons, List.append_assoc, List.length_cons, readTimes]
      rcases reads item List.mem_cons_self (items.flatMap write ++ rest)
        with stops | ⟨found, goesOn⟩
      · simp only [stops]
      · simp only [goesOn]
        apply ih
        · rcases List.mem_cons.1 member with rfl | later
          · rw [refuses] at goesOn
            cases goesOn
          · exact later
        · intro later isLater
          exact reads later (List.mem_cons_of_mem _ isLater)

end Cbor

namespace Json

theorem exists_costly_of_lt {elements : List Json} {bound : Nat}
    (costly : bound < readingCostOfAll elements) :
    ∃ element ∈ elements, bound < readingCost element := by
  by_contra none
  have each : ∀ element ∈ elements, readingCost element ≤ bound := by
    intro element member
    by_contra above
    exact none ⟨element, member, Nat.lt_of_not_le above⟩
  have := readingCostOfAll_le each
  omega

/-- A canonical document that takes more than the budget is not read. -/
theorem readCbor_eq_none {document : Json} (canonical : IsCanonical document) {budget : Nat}
    (tooDeep : budget < readingCost document) (rest : Bytes) :
    readCbor budget (toCbor document ++ rest) = none := by
  induction budget using Nat.strongRecOn generalizing document rest with
  | ind budget ih =>
      cases budget with
      | zero => simp only [readCbor]
      | succ budget =>
          -- What a list or an object holds is read to its end or refused, as it fits its budget.
          have reads {within : Nat} (smaller : within < budget + 1) {element : Json}
              (isCanonical : IsCanonical element) (later : Bytes) :
              readCbor within (toCbor element ++ later) = none ∨
                ∃ found, readCbor within (toCbor element ++ later) = some (found, later) := by
            rcases Nat.lt_or_ge within (readingCost element) with above | enough
            · exact Or.inl (ih within smaller isCanonical above later)
            · rcases readCbor_toCbor isCanonical enough later with ⟨found, read, _⟩
              exact Or.inr ⟨found, read⟩
          cases canonical with
          | null => simp [readingCost] at tooDeep
          | boolean value => simp [readingCost] at tooDeep
          | integer low high => simp [readingCost] at tooDeep
          | double finite => simp [readingCost] at tooDeep
          | text short => simp [readingCost] at tooDeep
          | @array elements short parts =>
              have notSimple : Cbor.Kind.list ≠ .simple := by decide
              simp only [toCbor, toCborAll_eq, List.append_assoc, readCbor_head notSimple short]
              cases budget with
              | zero => rfl
              | succ within =>
                  simp only [readingCost] at tooDeep
                  have costly : within < readingCostOfAll elements := by omega
                  rcases exists_costly_of_lt costly with ⟨refused, member, above⟩
                  apply Option.map_eq_none_iff.2
                  apply Cbor.readTimes_eq_none member
                  · exact ih within (by omega) (parts refused member) above
                  · intro element isElement
                    exact reads (by omega) (parts element isElement)
          | @object members short ascending names parts =>
              have length : (inWriting members).length < UInt64.size := by
                simpa [inWriting] using short
              have notSimple : Cbor.Kind.map ≠ .simple := by decide
              simp only [toCbor_object, List.append_assoc, readCbor_head notSimple length]
              cases budget with
              | zero => rfl
              | succ within =>
                  have original {member : String × Json} (isMember : member ∈ inWriting members) :
                      member ∈ members := List.mem_mergeSort.1 isMember
                  have named {member : String × Json} (isMember : member ∈ inWriting members)
                      (later : Bytes) :
                      readCborMember within (readCbor within) (writeCborMember member ++ later) =
                        (readCbor within (toCbor member.2 ++ later)).map fun read =>
                          ((member.1, read.1), read.2) := by
                    simp only [readCborMember, writeCborMember, List.append_assoc,
                      Cbor.readText_cborText within (names member (original isMember))]
                  simp only [readingCost, readingCostOfMembers_eq] at tooDeep
                  have costly : within < readingCostOfAll (members.map Prod.snd) := by omega
                  rcases exists_costly_of_lt costly with ⟨document, isDocument, above⟩
                  rcases List.mem_map.1 isDocument with ⟨refused, member, rfl⟩
                  have written : refused ∈ inWriting members := List.mem_mergeSort.2 member
                  apply Option.map_eq_none_iff.2
                  apply Cbor.readTimes_eq_none written
                  · intro later
                    rw [named written, ih within (by omega) (parts refused member) above,
                      Option.map_none]
                  · intro other isOther later
                    rw [named isOther]
                    rcases reads (by omega : within < within + 1 + 1)
                      (parts other (original isOther)) later with stops | ⟨found, goesOn⟩
                    · exact Or.inl (by rw [stops, Option.map_none])
                    · exact Or.inr ⟨(other.1, found), by rw [goesOn, Option.map_some]⟩

/-- A canonical document beyond the budget of a whole input is not read back from its bytes. -/
theorem ofCbor?_toCbor_eq_none {document : Json} (canonical : IsCanonical document)
    (tooDeep : Cbor.wholeBudget < readingCost document) : ofCbor? document.toCbor = none := by
  have refused := readCbor_eq_none canonical tooDeep []
  rw [List.append_nil] at refused
  rw [ofCbor?, refused]

/-- The empty list in a list of its own, and that in another, as deep as the depth tells. -/
def nested : (depth : Nat) → Json
  | 0 => .array []
  | depth + 1 => .array [nested depth]

theorem isCanonical_nested (depth : Nat) : IsCanonical (nested depth) := by
  induction depth with
  | zero => exact .array (by decide) fun _ impossible => by cases impossible
  | succ depth ih =>
      have short : [nested depth].length < UInt64.size := (by decide : 1 < UInt64.size)
      apply IsCanonical.array short
      intro element member
      cases List.mem_singleton.1 member
      exact ih

theorem readingCost_nested (depth : Nat) : readingCost (nested depth) = 2 * depth + 2 := by
  induction depth with
  | zero => rfl
  | succ depth ih =>
      simp only [nested, readingCost, readingCostOfAll, ih]
      omega

end Json

end TenantStore
