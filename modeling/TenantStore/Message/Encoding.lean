import TenantStore.Json.Cbor
import TenantStore.StoreError

/-!
# Messages as blocks

A message is a JSON document.  It is stored as DAG-CBOR under the identifier of those bytes.  A text
named `encodedData` at the top of the message is a payload given inline: it is kept beside the block
and put back on reading, so the identifier depends on the message without it.
-/

namespace TenantStore

/-- A message ready to be stored. -/
structure EncodedMessage where
  identifier : ContentId
  content : Bytes
  payload : Option String

namespace Message

/-- The name of the inline payload. -/
def payloadName : String := "encodedData"

/-- The inline payload of a message and the message without it. -/
def detach (message : Json) : Option String × Json :=
  match message with
  | .object members =>
    match Json.lastMember? payloadName members with
    | some (.text payload) =>
      (some payload, .object (members.filter fun member => !(member.1 == payloadName)))
    | _ => (none, message)
  | _ => (none, message)

/-- The message with an inline payload put in; a message that is no object has no place for it. -/
def attach (payload : Option String) (message : Json) : Json :=
  match payload, message with
  | some payload, .object members =>
    .object ((OrderedMap.ofList members).insert payloadName (.text payload)).toList
  | _, message => message

/-- The block of a message and its inline payload. -/
def encode (message : Json) : EncodedMessage :=
  let (payload, content) := detach message
  let bytes := content.toCbor
  { identifier := .of ContentId.messageCodec bytes, content := bytes, payload }

/-- The message of a block and an inline payload. -/
def decode (content : Bytes) (payload : Option String) : Except StoreError Json :=
  match Json.ofCbor? content with
  | some document => .ok (attach payload document.normalize)
  | none => .error (.serialization .malformedMessage)

end Message

end TenantStore
