import TenantStore.Cbor.Head

/-!
# Passing over CBOR items

What a record holds beside its fields is passed over.  It may be of any kind, also of those that no
document can hold: byte strings and texts of any bytes, tags, floating-point numbers of all widths,
undefined, and items that go on up to a break.  Each item costs one unit of the budget of depth for
what it holds.
-/

namespace TenantStore.Cbor

/-- Pass over a number of bytes. -/
def skipBytes (count : Nat) : Reader Unit := fun bytes =>
  (takeExactly? count bytes).map fun (_, rest) => ((), rest)

/-- Pass over two items. -/
def skipPair (skipOne : Reader Unit) : Reader Unit := fun bytes =>
  match skipOne bytes with
  | none => none
  | some ((), rest) => skipOne rest

/-- Pass over what follows the first byte of a simple item: nothing behind truth values, null and
undefined, and the bytes of a floating-point number. -/
def skipSimple (low : Nat) : Reader Unit :=
  if 20 ≤ low ∧ low ≤ 23 then skipBytes 0
  else if 25 ≤ low ∧ low ≤ 27 then skipBytes (1 <<< (low - 24))
  else fun _ => none

/-- Pass over items that a reader goes over. -/
def skipAll {α : Type} (items : Reader (List α)) : Reader Unit := fun bytes =>
  (items bytes).map fun (_, rest) => ((), rest)

/-- Pass over the contents of an item with a number in its head. -/
def skipContents (skipOne : Reader Unit) (kind : Kind) (number : Nat) : Reader Unit :=
  match kind with
  | .bytes | .text => skipBytes number
  | .list => skipAll (readTimes skipOne [] number)
  | .map => skipAll (readTimes (skipPair skipOne) [] number)
  | .tag => skipOne
  | _ => skipBytes 0

/-- Pass over the contents of an item that goes on up to a break.  In a byte string and a text they
can be items of any kind. -/
def skipOpen (skipOne : Reader Unit) (kind : Kind) : Reader Unit := fun bytes =>
  match kind with
  | .bytes | .text | .list => skipAll (readUntilBreak skipOne [] (bytes.length + 1)) bytes
  | .map => skipAll (readUntilBreak (skipPair skipOne) [] (bytes.length + 1)) bytes
  | _ => none

/-- Pass over one item within a budget of depth. -/
def skip : (budget : Nat) → Reader Unit
  | 0, _ => none
  | _, [] => none
  | budget + 1, lead :: rest =>
    let kind := Kind.ofLead lead
    let low := lead.toNat % 32
    if kind = .simple then skipSimple low rest
    else if low = openEnd then skipOpen (skip budget) kind rest
    else
      match readNumber low rest with
      | none => none
      | some (number, rest) => skipContents (skip budget) kind number rest

end TenantStore.Cbor
