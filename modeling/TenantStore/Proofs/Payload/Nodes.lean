import Mathlib.Data.List.Basic
import Mathlib.Data.List.Forall2
import Mathlib.Tactic.Common
import TenantStore.Payload.Node
import TenantStore.Proofs.ContentId.RoundTrip
import TenantStore.Proofs.Json.CborRoundTrip

/-!
# Nodes read back

A node whose numbers have 64 bits is read back from its bytes.  The fields come in the order of
writing, the shorter names first, so each of them is new to the draft when its turn comes.
-/

namespace TenantStore

namespace Cbor

theorem readCount_head (kind : Kind) {number : Nat} (small : number < UInt64.size) (rest : Bytes) :
    readCount kind (head kind number ++ rest) = some (number, rest) := by
  rw [readCount, readLength_head kind small]

theorem readNatural_cborInteger {number : Nat} (small : number < UInt64.size) (rest : Bytes) :
    readNatural (Json.cborInteger number ++ rest) = some (number, rest) := by
  have written : Json.cborInteger number = head .natural number := by simp [Json.cborInteger]
  rw [readNatural, written, readCount_head .natural small]

/-- A member whose item is read leads on to the next one. -/
theorem readMembers_member {σ : Type} {readField : (name : String) → σ → Reader σ} (budget : Nat)
    {state after : σ} {name : String} (short : (Text.bytes name).length < UInt64.size)
    {item rest : Bytes}
    (read : readField name state (item ++ rest) = some (after, rest)) (count : Nat) :
    readMembers readField budget state (count + 1) (Json.cborText name ++ (item ++ rest)) =
      readMembers readField budget after count rest := by
  rw [readMembers, readText_cborText budget short]
  simp only [read]

end Cbor

theorem Json.inWriting_pair (first second : String × Json) :
    inWriting [first, second] =
      if cborNameLe first.1 second.1 then [first, second] else [second, first] := by
  have sorted : inWriting [first, second] =
      List.merge [first] [second] fun first second => cborNameLe first.1 second.1 := by
    simp [inWriting, List.mergeSort, List.MergeSort.Internal.splitInTwo]
  rw [sorted]
  cases before : cborNameLe first.1 second.1 <;> simp [before]

namespace ContentId

theorem length_firstGroups {α : Type} (width count : Nat) (elements : List α) :
    (firstGroups width count elements).length = count := by
  induction count generalizing elements with
  | zero => rfl
  | succ count ih => rw [firstGroups, List.length_cons, ih]

theorem length_varint_le (value : UInt64) : (Varint.encode value).length ≤ 10 := by
  have general (width number : Nat) : (Varint.groups width number).length ≤ width := by
    induction width generalizing number with
    | zero => exact Nat.le_refl 0
    | succ width ih =>
        rw [Varint.groups]
        split
        · exact Nat.le_add_left 1 width
        · exact Nat.succ_le_succ (ih _)
  exact general 10 value.toNat

/-- The text of an identifier is short, as its digest is. -/
theorem length_toText_lt (identifier : ContentId) :
    (Text.bytes identifier.toText).length < UInt64.size := by
  have binary : identifier.toBytes.length ≤ 104 := by
    have version := length_varint_le 1
    have codec := length_varint_le identifier.codec
    have hash := length_varint_le hashCode
    have length := length_varint_le (UInt64.ofNat identifier.digest.length)
    have digest := identifier.digest_short
    simp only [toBytes, binaryForm, List.length_append]
    omega
  have digits : (Multibase.base32.encode identifier.toBytes).toList.length ≤ 167 := by
    have bits := Multibase.length_bitsOfBytes identifier.toBytes
    rw [Multibase.bitsOfBytes] at bits
    have width : Multibase.base32.width = 5 := rfl
    simp only [Multibase.BitAlphabet.encode, String.toList_ofList, List.length_map, groups,
      length_firstGroups, List.length_append, List.length_replicate, bits, width]
    omega
  have characters (text : String) : (Text.bytes text).length ≤ 4 * text.toList.length := by
    rw [← String.ofList_toList (s := text), Text.bytes_ofList, String.toList_ofList]
    induction text.toList with
    | nil => exact Nat.le_refl 0
    | cons character rest ih =>
        have one := Char.utf8Size_le_four character
        rw [List.flatMap_cons, List.length_append, List.length_cons, String.length_utf8EncodeChar]
        omega
  have whole := characters identifier.toText
  have size : UInt64.size = 18446744073709551616 := rfl
  rw [toList_toText, List.length_cons] at whole
  omega

end ContentId

namespace PayloadLink

variable {link : PayloadLink}

theorem toCbor_toJson (link : PayloadLink) :
    link.toJson.toCbor = Cbor.head .map 2 ++ (Json.cborText "cid" ++
      (Json.cborText link.target.toText ++
        (Json.cborText "size" ++ Json.cborInteger link.size))) := by
  have inOrder : Json.cborNameLe "cid" "size" = true := by decide
  rw [toJson, Json.toCbor_object, Json.inWriting_pair, if_pos inOrder]
  simp [Json.writeCborMember, Json.toCbor]

/-- A link is read back. -/
theorem read_toCbor (short : link.size < UInt64.size) (budget : Nat) (rest : Bytes) :
    read (budget + 1) (link.toJson.toCbor ++ rest) = some (link, rest) := by
  have text (later : Bytes) :
      readField budget "cid" {} (Json.cborText link.target.toText ++ later) =
      some ({ target := some link.target }, later) := by
    simp only [readField, Cbor.readText_cborText budget link.target.length_toText_lt,
      Option.bind_eq_bind, Option.bind_some, ContentId.ofText_toText, Except.toOption,
      Option.isSome_none, Bool.false_eq_true, if_false]
  have number (later : Bytes) :
      readField budget "size" { target := some link.target } (Json.cborInteger link.size ++ later) =
        some ({ target := some link.target, size := some link.size }, later) := by
    simp only [readField, Cbor.readNatural_cborInteger short, Option.bind_eq_bind,
      Option.bind_some, Option.isSome_none, Bool.false_eq_true, if_false]
  rw [read, toCbor_toJson, Cbor.readRecord]
  simp only [List.append_assoc, Cbor.readCount_head .map (by decide : 2 < UInt64.size)]
  rw [Cbor.readMembers_member _ (by decide) (text _), Cbor.readMembers_member _ (by decide)
    (number _)]
  rfl

end PayloadLink

namespace PayloadNode

variable {node : PayloadNode}

/-- Whether the numbers of a node have 64 bits. -/
structure IsShort (node : PayloadNode) : Prop where
  links : ∀ link ∈ node.links, link.size < UInt64.size
  count : node.links.length < UInt64.size
  size : node.size < UInt64.size

theorem encode_eq (node : PayloadNode) :
    node.encode = Cbor.head .map 2 ++ (Json.cborText "size" ++ (Json.cborInteger node.size ++
      (Json.cborText "links" ++ (Cbor.head .list node.links.length ++
        node.links.flatMap fun link => link.toJson.toCbor)))) := by
  have outOfOrder : Json.cborNameLe "links" "size" = false := by decide
  rw [encode, toJson, Json.toCbor_object, Json.inWriting_pair, if_neg (by rw [outOfOrder]; decide)]
  simp [Json.writeCborMember, Json.toCbor, Json.toCborAll_eq, List.flatMap_map]

theorem readLinks (short : node.IsShort) (budget : Nat) (rest : Bytes) :
    Cbor.readList PayloadLink.read (budget + 2) (Cbor.head .list node.links.length ++
      ((node.links.flatMap fun link => link.toJson.toCbor) ++ rest)) = some (node.links, rest) := by
  have reads (link : PayloadLink) (member : link ∈ node.links) (later : Bytes) :
      ∃ found, PayloadLink.read (budget + 1) (link.toJson.toCbor ++ later) = some (found, later) ∧
        link = found :=
    ⟨link, PayloadLink.read_toCbor (short.links link member) budget later, rfl⟩
  rcases Cbor.readTimes_flatMap reads [] rest with ⟨found, read, same⟩
  rw [List.forall₂_eq_eq_eq] at same
  rw [← same, List.reverse_nil, List.nil_append] at read
  simp only [Cbor.readList, Cbor.readCount_head .list short.count, read]

/-- A node is read back from its bytes. -/
theorem decode_encode (short : node.IsShort) : decode node.encode = .ok node := by
  have number (later : Bytes) : readField 255 "size" {} (Json.cborInteger node.size ++ later) =
      some ({ size := some node.size }, later) := by
    simp only [readField, Cbor.readNatural_cborInteger short.size, Option.bind_eq_bind,
      Option.bind_some, Option.isSome_none, Bool.false_eq_true, if_false]
  have links : readField 255 "links" { size := some node.size }
      (Cbor.head .list node.links.length ++ node.links.flatMap (fun link => link.toJson.toCbor) ++
        []) = some ({ links := some node.links, size := some node.size }, []) := by
    simp only [readField, List.append_assoc, readLinks short 253 [], Option.bind_eq_bind,
      Option.bind_some, Option.isSome_none, Bool.false_eq_true, if_false]
  have whole : read Cbor.wholeBudget node.encode = some (node, []) := by
    rw [read, Cbor.wholeBudget, encode_eq, Cbor.readRecord]
    simp only [Cbor.readCount_head .map (by decide : 2 < UInt64.size)]
    rw [Cbor.readMembers_member _ (by decide) (number _)]
    have last := Cbor.readMembers_member 255 (by decide) links 0
    rw [List.append_nil] at last
    rw [last]
    rfl
  rw [decode, whole]

/-- A node has more bytes than the names of its fields. -/
theorem seven_le_length_encode (node : PayloadNode) : 7 ≤ node.encode.length := by
  have size : (Json.cborText "size").length = 5 := by decide
  have links : (Json.cborText "links").length = 6 := by decide
  rw [encode_eq]
  simp only [List.length_append, size, links]
  omega

end PayloadNode

end TenantStore
