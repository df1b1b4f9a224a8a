import TenantStore.StoreError

/-!
# Keys made of segments

A key is a sequence of segments.  A segment is written with every zero byte followed by `0xFF` and
is ended by the bytes `0, 1`.  The end sorts below an escaped zero and below any other byte, so keys
compare as the sequences of their segments do, and no content of a segment is taken for its end.
-/

namespace TenantStore.Key

/-- The written form of one segment. -/
def encodeSegment : Bytes → Bytes
  | [] => [0, 1]
  | byte :: rest => if byte = 0 then 0 :: 0xFF :: encodeSegment rest else byte :: encodeSegment rest

/-- The key with the given segments. -/
def encode (segments : List Bytes) : Bytes := segments.flatMap encodeSegment

/-- The first segment of a key and the bytes that follow it. -/
def split? : Bytes → Option (Bytes × Bytes)
  | [] => none
  | byte :: rest =>
    if byte = 0 then
      match rest with
      | [] => none
      | mark :: rest =>
        if mark = 0xFF then (split? rest).map fun (segment, rest) => (0 :: segment, rest)
        else if mark = 1 then some ([], rest)
        else none
    else (split? rest).map fun (segment, rest) => (byte :: segment, rest)

theorem length_of_split? {key segment rest : Bytes} (found : split? key = some (segment, rest)) :
    rest.length < key.length := by
  fun_induction split? key generalizing segment rest with
  | case1 => simp at found
  | case2 => simp at found
  | case3 tail ih =>
    obtain ⟨⟨inner, after⟩, splits, same⟩ := Option.map_eq_some_iff.1 found
    cases same
    have := ih splits
    simp only [List.length_cons]
    omega
  | case4 tail _ =>
    cases found
    simp only [List.length_cons]
    omega
  | case5 => simp at found
  | case6 byte tail _ ih =>
    obtain ⟨⟨inner, after⟩, splits, same⟩ := Option.map_eq_some_iff.1 found
    cases same
    have := ih splits
    simp only [List.length_cons]
    omega

/-- The segments of a key, if it consists of whole segments. -/
def decode? (key : Bytes) : Option (List Bytes) :=
  if key.isEmpty then some []
  else
    match found : split? key with
    | none => none
    | some (segment, rest) =>
      have := length_of_split? found
      (decode? rest).map (segment :: ·)
termination_by key.length

/-- The first segment of a key and the bytes that follow it. -/
def split (key : Bytes) : Except StoreError (Bytes × Bytes) :=
  match split? key with
  | some parts => .ok parts
  | none => .error (.serialization .malformedKey)

/-- The segments of a key. -/
def decode (key : Bytes) : Except StoreError (List Bytes) :=
  match decode? key with
  | some segments => .ok segments
  | none => .error (.serialization .malformedKey)

/-- The least byte string above every string that begins with `start`; there is none if `start` is
empty or consists of bytes `0xFF` only. -/
def pastAll? : Bytes → Option Bytes
  | [] => none
  | byte :: rest =>
    match pastAll? rest with
    | some past => some (byte :: past)
    | none => if byte < 0xFF then some [byte + 1] else none

/-- The least byte string above `key`. -/
def next (key : Bytes) : Bytes := key ++ [0]

end TenantStore.Key
