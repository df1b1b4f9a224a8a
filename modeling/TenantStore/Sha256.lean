import TenantStore.Bytes

/-!
# SHA2-256

The digest of a byte sequence: the padded message is cut into blocks of 64 bytes, each block is
expanded to a schedule of 64 words, and 64 rounds mix the schedule into a state of eight words.

The main statement is that every digest has 32 bytes (`digest_length`).
-/

namespace TenantStore.Sha256

/-- The round constants: the first 32 fraction bits of the cube roots of the first 64 primes. -/
def roundConstants : List UInt32 :=
  [0x428a2f98, 0x71374491, 0xb5c0fbcf, 0xe9b5dba5, 0x3956c25b, 0x59f111f1, 0x923f82a4, 0xab1c5ed5,
   0xd807aa98, 0x12835b01, 0x243185be, 0x550c7dc3, 0x72be5d74, 0x80deb1fe, 0x9bdc06a7, 0xc19bf174,
   0xe49b69c1, 0xefbe4786, 0x0fc19dc6, 0x240ca1cc, 0x2de92c6f, 0x4a7484aa, 0x5cb0a9dc, 0x76f988da,
   0x983e5152, 0xa831c66d, 0xb00327c8, 0xbf597fc7, 0xc6e00bf3, 0xd5a79147, 0x06ca6351, 0x14292967,
   0x27b70a85, 0x2e1b2138, 0x4d2c6dfc, 0x53380d13, 0x650a7354, 0x766a0abb, 0x81c2c92e, 0x92722c85,
   0xa2bfe8a1, 0xa81a664b, 0xc24b8b70, 0xc76c51a3, 0xd192e819, 0xd6990624, 0xf40e3585, 0x106aa070,
   0x19a4c116, 0x1e376c08, 0x2748774c, 0x34b0bcb5, 0x391c0cb3, 0x4ed8aa4a, 0x5b9cca4f, 0x682e6ff3,
   0x748f82ee, 0x78a5636f, 0x84c87814, 0x8cc70208, 0x90befffa, 0xa4506ceb, 0xbef9a3f7, 0xc67178f2]

/-- The chaining state of eight words. -/
structure State where
  a : UInt32
  b : UInt32
  c : UInt32
  d : UInt32
  e : UInt32
  f : UInt32
  g : UInt32
  h : UInt32

/-- The state before the first block. -/
def State.initial : State :=
  ⟨0x6a09e667, 0xbb67ae85, 0x3c6ef372, 0xa54ff53a, 0x510e527f, 0x9b05688c, 0x1f83d9ab, 0x5be0cd19⟩

/-- Rotate a word right by `count` bits, for `0 < count < 32`. -/
def rotateRight (word : UInt32) (count : UInt32) : UInt32 :=
  (word >>> count) ||| (word <<< (32 - count))

/-- One round with the given constant and schedule word. -/
def State.round (state : State) (constant word : UInt32) : State :=
  let choice := (state.e &&& state.f) ^^^ (~~~state.e &&& state.g)
  let mixedE := rotateRight state.e 6 ^^^ rotateRight state.e 11 ^^^ rotateRight state.e 25
  let first := state.h + mixedE + choice + constant + word
  let majority := (state.a &&& state.b) ^^^ (state.a &&& state.c) ^^^ (state.b &&& state.c)
  let mixedA := rotateRight state.a 2 ^^^ rotateRight state.a 13 ^^^ rotateRight state.a 22
  ⟨first + (mixedA + majority), state.a, state.b, state.c, state.d + first, state.e, state.f,
    state.g⟩

/-- The sum of two states, word by word. -/
def State.add (first second : State) : State :=
  ⟨first.a + second.a, first.b + second.b, first.c + second.c, first.d + second.d,
    first.e + second.e, first.f + second.f, first.g + second.g, first.h + second.h⟩

/-- The big-endian words of a byte sequence; up to three bytes at the end are dropped. -/
def words : Bytes → List UInt32
  | first :: second :: third :: fourth :: rest =>
    (first.toUInt32 <<< 24 ||| second.toUInt32 <<< 16 ||| third.toUInt32 <<< 8 |||
      fourth.toUInt32) :: words rest
  | _ => []

/-- Put the next word in front of a schedule that is held newest word first. -/
def extendSchedule (schedule : List UInt32) : List UInt32 :=
  let recent := schedule.getD 1 0
  let early := schedule.getD 14 0
  let mixedRecent := rotateRight recent 17 ^^^ rotateRight recent 19 ^^^ (recent >>> 10)
  let mixedEarly := rotateRight early 7 ^^^ rotateRight early 18 ^^^ (early >>> 3)
  (mixedRecent + schedule.getD 6 0 + mixedEarly + schedule.getD 15 0) :: schedule

/-- The 64 schedule words of a block of 64 bytes. -/
def schedule (block : Bytes) : List UInt32 :=
  (Nat.repeat extendSchedule 48 (words block).reverse).reverse

/-- Mix one block into the state. -/
def State.absorb (state : State) (block : Bytes) : State :=
  state.add ((roundConstants.zip (schedule block)).foldl
    (fun mixed step => mixed.round step.1 step.2) state)

/-- Mix `count` blocks of 64 bytes into the state. -/
def State.absorbAll (state : State) : Nat → Bytes → State
  | 0, _ => state
  | count + 1, message => (state.absorb (message.take 64)).absorbAll count (message.drop 64)

/-- The message followed by a one bit, zeros, and its length in bits as eight bytes. -/
def pad (message : Bytes) : Bytes :=
  let zeros := (119 - message.length % 64) % 64
  message ++ 0x80 :: (List.replicate zeros 0 ++ Bytes.bigEndian 8 (8 * message.length))

/-- The words of a state, the highest byte of each first. -/
def State.toBytes (state : State) : Bytes :=
  [state.a, state.b, state.c, state.d, state.e, state.f, state.g, state.h].flatMap fun word :
    UInt32 =>
    [(word >>> 24).toUInt8, (word >>> 16).toUInt8, (word >>> 8).toUInt8, word.toUInt8]

/-- The digest of a message. -/
def digest (message : Bytes) : Bytes :=
  let padded := pad message
  (State.initial.absorbAll (padded.length / 64) padded).toBytes

@[simp] theorem State.toBytes_length (state : State) : state.toBytes.length = 32 := rfl

@[simp] theorem digest_length (message : Bytes) : (digest message).length = 32 := rfl

end TenantStore.Sha256
