import Mathlib.Data.List.Basic
import Mathlib.Tactic.Common
import TenantStore.Message.Encoding
import TenantStore.Proofs.Json.MemberOrder

/-!
# Messages read back

A canonical message within the budget of its reader is read back from its block and its inline
payload.  The payload is taken out of the block by its name and put back under the same name, so it
does not matter where it stood.
-/

namespace TenantStore

namespace Json

theorem readingCost_filter_le (keep : String × Json → Bool) (members : List (String × Json)) :
    readingCost (.object (members.filter keep)) ≤ readingCost (.object members) := by
  rw [readingCost, readingCost, readingCostOfMembers_eq (members.filter keep)]
  apply Nat.add_le_add_right
  apply readingCostOfAll_le
  intro element isElement
  rcases List.mem_map.1 isElement with ⟨member, isMember, rfl⟩
  exact readingCost_le_of_member (List.mem_of_mem_filter isMember)

theorem IsCanonical.filter {members : List (String × Json)}
    (canonical : IsCanonical (.object members)) (keep : String × Json → Bool) :
    IsCanonical (.object (members.filter keep)) := by
  cases canonical with
  | object short ascending names parts =>
      have shorter := List.length_filter_le keep members
      exact .object (Nat.lt_of_le_of_lt shorter short) (ascending.filter _)
        (fun member isMember => names member (List.mem_of_mem_filter isMember))
        (fun member isMember => parts member (List.mem_of_mem_filter isMember))

theorem lastMember?_eq_find? (map : OrderedMap String Json) (name : String) :
    lastMember? name map.toList = map.find? name := by
  rw [lastMember?_eq_find?_ofList, OrderedMap.ofList_toList]

end Json

namespace Message

open Json (IsCanonical readingCost)

/-- A payload that was taken out and is put back gives the members as they were. -/
theorem insert_payload {map : OrderedMap String Json} {payload : String}
    (held : map.find? payloadName = some (.text payload)) :
    (OrderedMap.ofList (map.toList.filter fun member => !(member.1 == payloadName))).insert
      payloadName
        (.text payload) = map := by
  have others : OrderedMap.ofList (map.toList.filter fun member => !(member.1 == payloadName)) =
      map.keepIf fun name => !(name == payloadName) :=
    OrderedMap.ext (OrderedMap.entries_ofList (map.ascending.filter _))
  apply OrderedMap.eq_of_find?
  intro name
  rw [others, OrderedMap.find?_insert, OrderedMap.find?_keepIf]
  by_cases same : name = payloadName
  · rw [if_pos same, same, held]
  · have kept : (!(name == payloadName)) = true := by simpa using same
    rw [if_neg same, if_pos kept]

/-- A message has an inline payload only as an object with a text of that name. -/
theorem detach_eq (message : Json) :
    detach message = (none, message) ∨
      ∃ members payload, message = .object members ∧
        Json.lastMember? payloadName members = some (.text payload) ∧
          detach message =
            (some payload, .object (members.filter fun member => !(member.1 == payloadName))) := by
  unfold detach
  split
  · rename_i members
    split
    · rename_i payload held
      exact Or.inr ⟨members, payload, rfl, held, rfl⟩
    · exact Or.inl rfl
  · exact Or.inl rfl

/-- What was taken out of a message is put back. -/
theorem attach_detach {message : Json} (canonical : IsCanonical message) :
    attach (detach message).1 (detach message).2 = message := by
  rcases detach_eq message with whole | ⟨members, payload, rfl, held, parts⟩
  · rw [whole]
    cases message <;> rfl
  · cases canonical with
    | object short ascending names documents =>
        have isHeld : (⟨members, ascending⟩ : OrderedMap String Json).find? payloadName =
            some (.text payload) := by
          rw [← Json.lastMember?_eq_find?]
          exact held
        rw [parts]
        exact congrArg (fun map => Json.object map.toList) (insert_payload isHeld)

theorem isCanonical_detach {message : Json} (canonical : IsCanonical message) :
    IsCanonical (detach message).2 ∧ readingCost (detach message).2 ≤ readingCost message := by
  rcases detach_eq message with whole | ⟨members, payload, rfl, _, parts⟩
  · rw [whole]
    exact ⟨canonical, Nat.le_refl _⟩
  · rw [parts]
    exact ⟨canonical.filter _, Json.readingCost_filter_le _ _⟩

/-- A canonical message within the budget is read back. -/
theorem decode_encode {message : Json} (canonical : IsCanonical message)
    (shallow : readingCost message ≤ Cbor.wholeBudget) :
    decode (encode message).content (encode message).payload = .ok message := by
  rcases isCanonical_detach canonical with ⟨contentCanonical, cheaper⟩
  rcases Json.ofCbor?_toCbor contentCanonical (Nat.le_trans cheaper shallow)
    with ⟨found, read, stands⟩
  rw [decode, encode]
  simp only [read, stands]
  rw [attach_detach canonical]

theorem verify_encode (message : Json) :
    (encode message).identifier.verify (encode message).content = .ok () := by
  rw [ContentId.verify, if_pos]
  simp [encode, ContentId.names, ContentId.of]

end Message

end TenantStore
