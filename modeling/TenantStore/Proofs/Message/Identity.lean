import Mathlib.Data.List.Basic
import Mathlib.Tactic.Common
import TenantStore.Message.Encoding
import TenantStore.Proofs.Json.MemberOrder

/-!
# What a message is named by

The block of a message tells the message up to the order of members, apart from the text that is its
inline payload.  Only a text at the top of the message is one: anything else of that name, and a
text of that name further down, is in the block and so counts in its identifier.
-/

namespace TenantStore

namespace Json

theorem lastMember?_eq_some_iff {members : List (String × Json)}
    (distinct : (members.map Prod.fst).Nodup) {name : String} {document : Json} :
    lastMember? name members = some document ↔ (name, document) ∈ members := by
  rw [lastMember?_eq_find?_ofList, OrderedMap.find?_eq_some_iff]
  exact OrderedMap.mem_ofList_iff distinct

theorem IsDocument.filter {members : List (String × Json)}
    (isDocument : IsDocument (.object members)) (keep : String × Json → Bool) :
    IsDocument (.object (members.filter keep)) := by
  cases isDocument with
  | object short distinct names parts =>
      have shorter := List.length_filter_le keep members
      exact .object (Nat.lt_of_le_of_lt shorter short)
        (distinct.sublist (List.filter_sublist.map _))
        (fun member isMember => names member (List.mem_of_mem_filter isMember))
        (fun member isMember => parts member (List.mem_of_mem_filter isMember))

end Json

namespace Message

/-- Whether a member at the top of a message is its inline payload. -/
def isInlinePayload (member : String × Json) : Bool :=
  member.1 == payloadName && member.2.text?.isSome

/-- The message without its inline payload. -/
def withoutInlinePayload : Json → Json
  | .object members => .object (members.filter fun member => !isInlinePayload member)
  | message => message

theorem isInlinePayload_iff {member : String × Json} :
    isInlinePayload member = true ↔ member.1 = payloadName ∧
    ∃ payload, member.2 = .text payload := by
  rw [isInlinePayload, Bool.and_eq_true, beq_iff_eq]
  refine and_congr_right fun _ => ?_
  cases member.2 <;> simp [Json.text?]

/-- What is written of a message is the message without its inline payload. -/
theorem detach_snd_eq {message : Json} (isDocument : message.IsDocument) :
    (detach message).2 = withoutInlinePayload message := by
  cases isDocument with
  | null | boolean | integer | double | text | array => rfl
  | @object members _ distinct _ _ =>
      have held {member : String × Json} (isMember : member ∈ members)
        (named : member.1 = payloadName) :
          Json.lastMember? payloadName members = some member.2 :=
        (Json.lastMember?_eq_some_iff distinct).2 (named ▸ isMember)
      rw [detach, withoutInlinePayload]
      split
      · rename_i payload isHeld
        refine congrArg Json.object (List.filter_congr fun member isMember => ?_)
        rw [Bool.eq_iff_iff, Bool.not_eq_true', Bool.not_eq_true',
          beq_eq_false_iff_ne, ← Bool.not_eq_true, isInlinePayload_iff, not_iff_not]
        refine ⟨fun named => ⟨named, payload, ?_⟩, And.left⟩
        exact Option.some.inj ((held isMember named).symm.trans isHeld)
      · rename_i noText
        refine congrArg Json.object (List.filter_eq_self.2 fun member isMember => ?_).symm
        rw [Bool.not_eq_true', ← Bool.not_eq_true, isInlinePayload_iff]
        rintro ⟨named, payload, isText⟩
        exact noText payload (isText ▸ held isMember named)

theorem isDocument_withoutInlinePayload {message : Json} (isDocument : message.IsDocument) :
    (withoutInlinePayload message).IsDocument := by
  cases message with
  | object members => exact isDocument.filter _
  | _ => exact isDocument

/-- Two messages of any depth have the same bytes exactly if they are the same up to the order of
members once their inline payloads are taken out. -/
theorem content_encode_eq_iff {first second : Json} (isFirst : first.IsDocument)
    (isSecond : second.IsDocument) :
    (encode first).content = (encode second).content ↔
      (withoutInlinePayload first).normalize = (withoutInlinePayload second).normalize := by
  have written (message : Json) : (encode message).content = (detach message).2.toCbor := rfl
  rw [written, written, detach_snd_eq isFirst, detach_snd_eq isSecond]
  exact (isDocument_withoutInlinePayload isFirst).toCbor_eq_iff
    (isDocument_withoutInlinePayload isSecond)

/-- The order of members and the inline payload make no difference, but a text of that name further
down does. -/
theorem content_encode_eq_iff_of_nested :
    let nested (text : String) : Json := .object [(payloadName, .text text)]
    let numbers : Json := .array [.integer 1, .double ⟨0x3FF0000000000000⟩]
    let first : Json := .object [("b", numbers), (payloadName, .text "y"), ("a", nested "x")]
    let second (text : String) : Json := .object [("a", nested text), ("b", numbers)]
    (encode first).content = (encode (second "x")).content ∧
      (encode first).content ≠ (encode (second "z")).content := by
  intro nested numbers first second
  have isNested (text : String) (short : (Text.bytes text).length < UInt64.size) :
      (nested text).IsDocument := by
    refine .object (show 1 < UInt64.size by decide) (List.nodup_singleton _) ?_ ?_
    · rw [List.forall_mem_singleton]
      exact show (Text.bytes payloadName).length < UInt64.size by decide
    · rw [List.forall_mem_singleton]
      exact .text short
  have isNumbers : numbers.IsDocument := by
    refine .array (by decide) ?_
    simp only [List.forall_mem_cons]
    exact ⟨.integer (by decide) (by decide), .double (by decide),
      fun _ impossible => by cases impossible⟩
  have isFirst : first.IsDocument := by
    refine .object (by decide) (by decide) (by simp only [List.forall_mem_cons]; decide) ?_
    simp only [List.forall_mem_cons]
    exact ⟨isNumbers, .text (by decide), isNested "x" (by decide),
      fun _ impossible => by cases impossible⟩
  have isSecond (text : String) (short : (Text.bytes text).length < UInt64.size) :
      (second text).IsDocument := by
    refine .object (show 2 < UInt64.size by decide) (show ["a", "b"].Nodup by decide) ?_ ?_
    · simp only [List.forall_mem_cons]
      decide
    · simp only [List.forall_mem_cons]
      exact ⟨isNested text short, isNumbers, fun _ impossible => by cases impossible⟩
  constructor
  · rw [content_encode_eq_iff isFirst (isSecond "x" (by decide))]
    simp only [withoutInlinePayload, first, second, nested, numbers, Json.normalize]
    rfl
  · intro same
    have sameContent := (content_encode_eq_iff isFirst (isSecond "z" (by decide))).1 same
    have sameNested := Json.normalize_object_eq_iff.1 sameContent "a"
    have sameText := Json.normalize_object_eq_iff.1 (Option.some.inj sameNested) payloadName
    simp [Json.lastMember?, Json.normalize] at sameText

end Message

end TenantStore
