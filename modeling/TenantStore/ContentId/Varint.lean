import TenantStore.Bytes

/-!
# Variable-length numbers

A number below `2 ^ 64` is written in base 128, least significant group first, with the high bit
set on every byte but the last.  Reading takes at most ten bytes, of the tenth only its lowest bit,
and refuses a number of several bytes whose last byte is zero, since a shorter one says the same.
-/

namespace TenantStore.Varint

/-- Why a number could not be read. -/
inductive Fault where
  | endOfInput
  /-- The number is not in its shortest form or has more than ten bytes. -/
  | malformed
  deriving DecidableEq, Repr

/-- The bytes of a number, in at most `width` groups. -/
def groups : (width : Nat) → Nat → Bytes
  | 0, _ => []
  | width + 1, value =>
    if value < 128 then [UInt8.ofNat value]
    else UInt8.ofNat (value % 128 + 128) :: groups width (value / 128)

/-- The shortest form of a number. -/
def encode (value : UInt64) : Bytes := groups 10 value.toNat

/-- Read the byte at `place`, and those after it while the high bit asks for more. -/
def decodeFrom (place : Nat) (value : Nat) : Bytes → Except Fault (Nat × Bytes)
  | [] => .error .endOfInput
  | byte :: rest =>
    let group := if place = 9 then byte.toNat % 2 else byte.toNat % 128
    let value := value + group <<< (7 * place)
    if byte < 128 then
      if byte = 0 ∧ place > 0 then .error .malformed else .ok (value, rest)
    else if place = 9 then .error .malformed
    else decodeFrom (place + 1) value rest

/-- Read a number from the front of the bytes. -/
def decode (bytes : Bytes) : Except Fault (UInt64 × Bytes) :=
  (decodeFrom 0 0 bytes).map fun (value, rest) => (UInt64.ofNat value, rest)

end TenantStore.Varint
