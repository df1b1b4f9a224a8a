import TenantStore.Cbor.Head
import TenantStore.Json.Basic

/-!
# Documents as DAG-CBOR

Writing is canonical: numbers in heads take the fewest bytes, a double always takes eight, and the
members of an object are ordered by the length of their names and then by the bytes of their names.

Reading is more liberal: heads may be longer than needed, members may come in any order, and a name
is whatever can be read where a text must come.  It refuses byte strings, tags, half-width floats,
items that go on up to a break, names apart, and the other simple values.  The depth is bounded by a
budget: a document costs one unit and a list or an object one more, for what it holds; the budget of
a whole document is 256.
-/

namespace TenantStore.Json

/-- A text as an item. -/
def cborText (text : String) : Bytes :=
  let bytes := Text.bytes text
  Cbor.head .text bytes.length ++ bytes

/-- An integer as an item. -/
def cborInteger (value : Int) : Bytes :=
  if 0 ≤ value then Cbor.head .natural value.toNat else Cbor.head .negative (-1 - value).toNat

/-- Whether a member with the first name does not come after one with the second. -/
def cborNameLe (first second : String) : Bool :=
  let firstBytes := Text.bytes first
  let secondBytes := Text.bytes second
  firstBytes.length < secondBytes.length ||
    (firstBytes.length = secondBytes.length && !decide (secondBytes < firstBytes))

mutual

/-- A document as bytes. -/
def toCbor : Json → Bytes
  | .null => [0xF6]
  | .boolean value => if value then [0xF5] else [0xF4]
  | .integer value => cborInteger value
  | .double value => 0xFB :: Bytes.bigEndian 8 value.bits.toNat
  | .text value => cborText value
  | .array elements => Cbor.head .list elements.length ++ toCborAll elements
  | .object members =>
    Cbor.head .map members.length ++
      ((toCborMembers members).mergeSort fun first second => cborNameLe first.1 second.1).flatMap
        fun member => cborText member.1 ++ member.2

/-- The documents of a list, one after the other. -/
def toCborAll : List Json → Bytes
  | [] => []
  | element :: rest => toCbor element ++ toCborAll rest

/-- The names of members, each with the bytes of its document. -/
def toCborMembers : List (String × Json) → List (String × Bytes)
  | [] => []
  | (name, document) :: rest => (name, toCbor document) :: toCborMembers rest

end

/-- The document of a double; one that is no number becomes null. -/
def ofDouble (double : Double) : Json := if double.isFinite then .double double else .null

/-- Read a text of that many bytes. -/
def readPlainText (length : Nat) : Cbor.Reader Json := fun bytes => do
  let (content, rest) ← Cbor.takeExactly? length bytes
  some (.text (← Text.ofBytes? content), rest)

/-- Read the document that stands behind a first byte of the simple kind. -/
def readSimple (low : Nat) : Cbor.Reader Json := fun bytes =>
  match low with
  | 20 => some (.boolean false, bytes)
  | 21 => some (.boolean true, bytes)
  | 22 => some (.null, bytes)
  | 26 => (Cbor.readNumber low bytes).map fun (bits, rest) =>
      (ofDouble (Double.ofSingleBits (UInt32.ofNat bits)), rest)
  | 27 => (Cbor.readNumber low bytes).map fun (bits, rest) =>
      (ofDouble ⟨UInt64.ofNat bits⟩, rest)
  | _ => none

/-- Read a name and the document that follows it. -/
def readCborMember (budget : Nat) (readOne : Cbor.Reader Json) : Cbor.Reader (String × Json) :=
  fun bytes =>
    match Cbor.readText budget bytes with
    | none => none
    | some (name, rest) => (readOne rest).map fun (document, rest) => ((name, document), rest)

/-- Read one document within a budget of depth. -/
def readCbor : (budget : Nat) → Cbor.Reader Json
  | 0, _ => none
  | _, [] => none
  | budget + 1, lead :: rest =>
    let kind := Cbor.Kind.ofLead lead
    let low := lead.toNat % 32
    if kind = .simple then readSimple low rest
    else
      match Cbor.readNumber low rest with
      | none => none
      | some (number, rest) =>
        match kind, budget with
        | .natural, _ => some (.integer number, rest)
        | .negative, _ =>
          if number < 1 <<< 63 then some (.integer (-1 - number), rest) else none
        | .text, _ => readPlainText number rest
        | .list, inner + 1 =>
          (Cbor.readTimes (readCbor inner) [] number rest).map fun (elements, rest) =>
            (.array elements, rest)
        | .map, inner + 1 =>
          (Cbor.readTimes (readCborMember inner (readCbor inner)) [] number rest).map
            fun (members, rest) => (.object members, rest)
        | _, _ => none

/-- The document that the bytes hold, with its members as they are written. -/
def ofCbor? (bytes : Bytes) : Option Json :=
  match readCbor Cbor.wholeBudget bytes with
  | some (document, []) => some document
  | _ => none

end TenantStore.Json
