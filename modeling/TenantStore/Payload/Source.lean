import TenantStore.StoreError

/-!
# Sources of payloads

The bytes of a payload arrive in pieces, and the source ends by saying that it is finished or by
failing.  A reader takes as many bytes as it wants; it meets the end only if it wants more than
there are.

A feed is what the reads of any reader find, one after another.  It may say that it has ended and
give more bytes when it is read again, and then it matters who reads: to read a feed in full is to
stop at its first end, while reading it chunk by chunk stops only at a chunk without bytes.  A
source is a feed that keeps to its end once it has come to it.

A chunk is read into a buffer of its full size, and no buffer may be larger than half of what can be
addressed.  Below that bound, memory is taken to suffice for every buffer and for all bytes that are
read.
-/

namespace TenantStore

/-- How a source ends. -/
inductive SourceEnding where
  | finished
  | failed
  deriving DecidableEq, Repr

/-- What is found by reading on. -/
structure Feed where
  /-- The pieces in which bytes arrive.  An empty piece says that they have ended, though more may
  come when it is read again. -/
  pieces : List Bytes
  /-- What is found after the last piece. -/
  ending : SourceEnding := .finished
  deriving DecidableEq, Repr

/-- Where the bytes of a payload come from, if no more of them come after their end.  A reader that
goes on after its end is not a source but only a feed. -/
structure Source where
  /-- The pieces in which the bytes arrive; an empty piece is none. -/
  pieces : List Bytes
  ending : SourceEnding := .finished
  deriving DecidableEq, Repr

namespace Source

/-- The source that gives these bytes at once. -/
def ofBytes (content : Bytes) : Source := ⟨[content], .finished⟩

/-- All bytes that the source gives before it ends. -/
def content (source : Source) : Bytes := source.pieces.flatten

/-- What is found by reading a source: its bytes, and then its end as often as it is read. -/
def feed (source : Source) : Feed :=
  ⟨source.pieces.filter fun piece => !piece.isEmpty, source.ending⟩

instance : Coe Source Feed := ⟨feed⟩

end Source

/-- The largest buffer that can be asked for. -/
def largestBuffer : Nat := 9223372036854775807

namespace Feed

/-- All bytes of a feed, those after its first end included. -/
def content (feed : Feed) : Bytes := feed.pieces.flatten

/-- The bytes of a feed before its first end. -/
def beforeEnd (feed : Feed) : Bytes :=
  (feed.pieces.takeWhile fun piece => !piece.isEmpty).flatten

/-- Whether a feed says that it has ended before its pieces are used up. -/
def pauses (feed : Feed) : Bool := feed.pieces.any List.isEmpty

/-- Take up to `wanted` bytes from pieces, `taken` being those already taken, newest first: the
bytes, the pieces left, and whether the pieces were used up with bytes still wanted. -/
def takeBytes (wanted : Nat) (taken : List Bytes) : List Bytes → Bytes × List Bytes × Bool
  | [] => (taken.reverse.flatten, [], wanted ≠ 0)
  | piece :: rest =>
    if wanted = 0 then (taken.reverse.flatten, piece :: rest, false)
    else if piece.isEmpty then (taken.reverse.flatten, rest, false)
    else if piece.length ≤ wanted then takeBytes (wanted - piece.length) (piece :: taken) rest
    else ((piece.take wanted :: taken).reverse.flatten, piece.drop wanted :: rest, false)

/-- Read a chunk of `size` bytes into a buffer for it, fewer only at an end. -/
def readChunk (feed : Feed) (size : Nat) : Except StoreError (Bytes × Feed) :=
  if largestBuffer < size then .error .capacityOverflow
  else
    let (chunk, rest, usedUp) := takeBytes size [] feed.pieces
    if usedUp ∧ feed.ending = .failed then .error .sourceFailed
    else .ok (chunk, { feed with pieces := rest })

/-- Read chunks until an empty one, `read` of them already read in reverse, at most `count` more. -/
def readChunksWithin (count : Nat) (feed : Feed) (size : Nat) (read : List Bytes) :
    Except StoreError (List Bytes) :=
  match count with
  | 0 => .ok read.reverse
  | count + 1 =>
    match feed.readChunk size with
    | .error problem => .error problem
    | .ok (chunk, rest) =>
      if chunk.isEmpty then .ok read.reverse
      else readChunksWithin count rest size (chunk :: read)

/-- Read a feed in chunks of `size` bytes.  A first chunk that is not full is the only one, and of
the others none is empty, so there are not more of them than bytes. -/
def readChunks (feed : Feed) (size : Nat) : Except StoreError (List Bytes) := do
  let (first, rest) ← feed.readChunk size
  if first.length < size then pure [first]
  else readChunksWithin (rest.content.length + 1) rest size [first]

/-- Read a feed up to its first end. -/
def readAll (feed : Feed) : Except StoreError Bytes :=
  if feed.pauses = false ∧ feed.ending = .failed then .error .sourceFailed
  else .ok feed.beforeEnd

end Feed

end TenantStore
