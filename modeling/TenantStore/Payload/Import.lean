import TenantStore.Grouping
import TenantStore.Payload.Layout
import TenantStore.Payload.Node
import TenantStore.Payload.Source

/-!
# Importing payloads

An import reads a feed and gives the blocks of the payload.  In the chunked layout the leaves come
first; each further level groups the links of the level below, as many as a node holds at a time,
until one node remains.  A payload that fits one chunk is a single block in both layouts.
-/

namespace TenantStore

/-- A block: its identifier and its bytes. -/
abbrev Block := ContentId × Bytes

/-- The blocks of a payload. -/
structure PayloadTree where
  /-- The identifier of the block from which the others are reached. -/
  root : ContentId
  size : Nat
  blocks : List Block

namespace PayloadTree

/-- The payload that is a single block. -/
def single (content : Bytes) : PayloadTree :=
  let root := ContentId.raw content
  ⟨root, content.length, [(root, content)]⟩

/-- A chunk as a block of its own, and the link to it. -/
def leaf (chunk : Bytes) : PayloadLink × Block :=
  let identifier := ContentId.raw chunk
  (⟨identifier, chunk.length⟩, identifier, chunk)

/-- The link to the node over some links and its block. -/
def parent (links : List PayloadLink) : PayloadLink × Block :=
  let node := PayloadNode.ofLinks links
  let content := node.encode
  let identifier := ContentId.of ContentId.nodeCodec content
  (⟨identifier, node.size⟩, identifier, content)

/-- The link to the root over a level of links, and the blocks above the level, at most `levels`
levels of them. -/
def climbWithin (levels : Nat) (maxLinks : Nat) (first : PayloadLink) (others : List PayloadLink) :
    PayloadLink × List Block :=
  match levels, others with
  | 0, _ => (first, [])
  | _, [] => (first, [])
  | levels + 1, _ :: _ =>
    match (groups maxLinks (first :: others)).map parent with
    | [] => (first, [])
    | head :: rest =>
      let (root, above) := climbWithin levels maxLinks head.1 (rest.map Prod.fst)
      (root, (head :: rest).map Prod.snd ++ above)

/-- The link to the root over a level of links, and the blocks above the level.  A level of two
links or more is longer than the one above it. -/
def climb (maxLinks : Nat) (first : PayloadLink) (others : List PayloadLink) :
    PayloadLink × List Block :=
  climbWithin others.length maxLinks first others

/-- The payload made of these chunks. -/
def ofChunks (maxLinks : Nat) : List Bytes → PayloadTree
  | [] => single []
  | [chunk] => single chunk
  | first :: others =>
    let firstLeaf := leaf first
    let otherLeaves := others.map leaf
    let (root, above) := climb maxLinks firstLeaf.1 (otherLeaves.map Prod.fst)
    ⟨root.target, root.size, (firstLeaf :: otherLeaves).map Prod.snd ++ above⟩

end PayloadTree

namespace PayloadLayout

/-- Whether a chunk of this layout fits a buffer. -/
def IsBuildable : PayloadLayout → Prop
  | .flat => True
  | .chunked chunkSize _ => usableChunkSize chunkSize ≤ largestBuffer

instance (layout : PayloadLayout) : Decidable layout.IsBuildable :=
  match layout with
  | .flat => .isTrue trivial
  | .chunked chunkSize _ => inferInstanceAs (Decidable (usableChunkSize chunkSize ≤ largestBuffer))

/-- Read a payload and lay it out as blocks. -/
def build (layout : PayloadLayout) (feed : Feed) : Except StoreError PayloadTree :=
  match layout with
  | .flat => feed.readAll.map PayloadTree.single
  | .chunked chunkSize maxLinks =>
    (feed.readChunks (usableChunkSize chunkSize)).map
      (PayloadTree.ofChunks (usableMaxLinks maxLinks))

/-- The identifier of a payload in this layout. -/
def contentId (layout : PayloadLayout) (content : Bytes) : Except StoreError ContentId :=
  (layout.build (Source.ofBytes content)).map PayloadTree.root

end PayloadLayout

end TenantStore
