import TenantStore.Cbor.Record
import TenantStore.Cbor.Skipping
import TenantStore.Json.Cbor
import TenantStore.StoreError

/-!
# Nodes of chunked payloads

A node lists the blocks below it with the number of payload bytes under each, and the number of
bytes below the node itself.  It is stored as DAG-CBOR: a map with the fields of the node, and the
links as maps with theirs.  On reading the fields come in any order, each of them once, and what
stands beside them is passed over.
-/

namespace TenantStore

/-- A link from a node to a block below it. -/
structure PayloadLink where
  target : ContentId
  size : Nat
  deriving DecidableEq

/-- An inner node of a chunked payload. -/
structure PayloadNode where
  links : List PayloadLink
  size : Nat
  deriving DecidableEq

namespace PayloadLink

/-- The link as a document. -/
def toJson (link : PayloadLink) : Json :=
  .object [("cid", .text link.target.toText), ("size", .integer link.size)]

/-- The fields of a link that were read so far. -/
structure Draft where
  target : Option ContentId := none
  size : Option Nat := none

/-- The link of all its fields. -/
def Draft.complete? (draft : Draft) : Option PayloadLink :=
  match draft with
  | ⟨some target, some size⟩ => some ⟨target, size⟩
  | _ => none

/-- Read the item behind a name. -/
def readField (budget : Nat) (name : String) (draft : Draft) : Cbor.Reader Draft := fun bytes =>
  match name with
  | "cid" => do
    let (text, rest) ← Cbor.readText budget bytes
    let target ← (ContentId.ofText text).toOption
    if draft.target.isSome then none else some ({ draft with target := some target }, rest)
  | "size" => do
    let (size, rest) ← Cbor.readNatural bytes
    if draft.size.isSome then none else some ({ draft with size := some size }, rest)
  | _ => (Cbor.skip budget bytes).map fun (_, rest) => (draft, rest)

/-- Read a link within a budget of depth. -/
def read (budget : Nat) : Cbor.Reader PayloadLink := fun bytes => do
  let (draft, rest) ← Cbor.readRecord readField {} budget bytes
  some ((← draft.complete?), rest)

end PayloadLink

namespace PayloadNode

/-- The node over these links. -/
def ofLinks (links : List PayloadLink) : PayloadNode :=
  ⟨links, links.foldr (fun link total => link.size + total) 0⟩

/-- The node as a document. -/
def toJson (node : PayloadNode) : Json :=
  .object [("links", .array (node.links.map PayloadLink.toJson)), ("size", .integer node.size)]

/-- The content of the block of a node. -/
def encode (node : PayloadNode) : Bytes := node.toJson.toCbor

/-- The fields of a node that were read so far. -/
structure Draft where
  links : Option (List PayloadLink) := none
  size : Option Nat := none

/-- The node of all its fields. -/
def Draft.complete? (draft : Draft) : Option PayloadNode :=
  match draft with
  | ⟨some links, some size⟩ => some ⟨links, size⟩
  | _ => none

/-- Read the item behind a name. -/
def readField (budget : Nat) (name : String) (draft : Draft) : Cbor.Reader Draft := fun bytes =>
  match name with
  | "links" => do
    let (links, rest) ← Cbor.readList PayloadLink.read budget bytes
    if draft.links.isSome then none else some ({ draft with links := some links }, rest)
  | "size" => do
    let (size, rest) ← Cbor.readNatural bytes
    if draft.size.isSome then none else some ({ draft with size := some size }, rest)
  | _ => (Cbor.skip budget bytes).map fun (_, rest) => (draft, rest)

/-- Read a node within a budget of depth. -/
def read (budget : Nat) : Cbor.Reader PayloadNode := fun bytes => do
  let (draft, rest) ← Cbor.readRecord readField {} budget bytes
  some ((← draft.complete?), rest)

/-- The node that the bytes hold. -/
def decode (content : Bytes) : Except StoreError PayloadNode :=
  match read Cbor.wholeBudget content with
  | some (node, []) => .ok node
  | _ => .error (.serialization .malformedNode)

/-- The identifier of the block of a node. -/
def identifier (node : PayloadNode) : ContentId := .of ContentId.nodeCodec node.encode

end PayloadNode

end TenantStore
