import TenantStore.Json.Record

/-!
# Layouts of payloads

A payload is kept flat, as one block, or chunked, as leaves of a fixed size below nodes with a
bounded number of links.  Sizes and fan-outs below the least useful ones count as those.
-/

namespace TenantStore

/-- How the bytes of a payload are laid out as blocks. -/
inductive PayloadLayout where
  | flat
  /-- Leaves of `chunkSize` bytes below nodes of at most `maxLinks` links. -/
  | chunked (chunkSize maxLinks : Nat)
  deriving DecidableEq, Repr

namespace PayloadLayout

/-- The size of a leaf if none is given. -/
def defaultChunkSize : Nat := 262144

/-- The fan-out of a node if none is given. -/
def defaultMaxLinks : Nat := 174

/-- The layout if none is given. -/
def default : PayloadLayout := .chunked defaultChunkSize defaultMaxLinks

/-- A leaf holds at least one byte. -/
def usableChunkSize (chunkSize : Nat) : Nat := max chunkSize 1

/-- A node has room for at least two links. -/
def usableMaxLinks (maxLinks : Nat) : Nat := max maxLinks 2

/-- The layout with usable sizes. -/
def clamped : PayloadLayout → PayloadLayout
  | .flat => .flat
  | .chunked chunkSize maxLinks => .chunked (usableChunkSize chunkSize) (usableMaxLinks maxLinks)

/-- The layout as a document. -/
def toJson : PayloadLayout → Json
  | .flat => .object [("strategy", .text "flat")]
  | .chunked chunkSize maxLinks =>
    .object [("strategy", .text "chunked"), ("chunk_size", .integer chunkSize),
      ("max_links", .integer maxLinks)]

/-- Read a count that has a default. -/
def count? (default : Nat) : Option Json → Option Nat
  | none => some default
  | some document => document.natural64?

/-- The chunked layout of the given fields. -/
def chunkedOf? (fields : List (Option Json)) : Option PayloadLayout := do
  match fields with
  | [chunkSize, maxLinks] =>
    some (.chunked (← count? defaultChunkSize chunkSize) (← count? defaultMaxLinks maxLinks))
  | _ => none

/-- The names of the fields of a chunked layout. -/
def fieldNames : List String := ["chunk_size", "max_links"]

/-- The layout that a document stands for: an object whose member `strategy` names it, or a list
that begins with the name. -/
def ofJson? (document : Json) : Option PayloadLayout :=
  match document with
  | .object members =>
    match Json.lastMember? "strategy" members with
    | some (.text "flat") => some .flat
    | some (.text "chunked") => (document.fields? fieldNames).bind chunkedOf?
    | _ => none
  | .array [.text "flat"] => some .flat
  | .array (.text "chunked" :: rest) => ((Json.array rest).fields? fieldNames).bind chunkedOf?
  | _ => none

end PayloadLayout

end TenantStore
