import TenantStore.ContentId.Varint
import TenantStore.ContentId.Multibase
import TenantStore.Sha256

/-!
# Content identifiers

A content identifier names a byte sequence by the codec that says how to read the bytes and by a
SHA2-256 digest.  Its version and its hash function are fixed, so the type holds neither.  The
binary form is the version, the codec, the hash code and the digest length as variable-length
numbers, followed by the digest; the text is that form in base 32 behind the letter `b`.
-/

namespace TenantStore

/-- The name of a byte sequence: a codec and a SHA2-256 digest, of which a reader accepts any length
that a hash can have. -/
structure ContentId where
  codec : UInt64
  digest : Bytes
  digest_short : digest.length ≤ 64
  deriving DecidableEq

namespace ContentId

/-- The codec of raw bytes. -/
def rawCodec : UInt64 := 0x55

/-- The codec of the inner nodes of a chunked payload. -/
def nodeCodec : UInt64 := 0x51

/-- The codec of encoded messages. -/
def messageCodec : UInt64 := 0x71

/-- The code of the hash function. -/
def hashCode : UInt64 := 0x12

/-- The identifier of `content` under a codec. -/
def of (codec : UInt64) (content : Bytes) : ContentId where
  codec := codec
  digest := Sha256.digest content
  digest_short := by simp

/-- The identifier of raw bytes. -/
def raw (content : Bytes) : ContentId := of rawCodec content

/-- The binary form of an identifier with the given codec, hash code and digest. -/
def binaryForm (codec hash : UInt64) (digest : Bytes) : Bytes :=
  Varint.encode 1 ++ Varint.encode codec ++ Varint.encode hash ++
    Varint.encode (UInt64.ofNat digest.length) ++ digest

/-- The text of a binary form. -/
def textOfBinary (binary : Bytes) : String := "b" ++ Multibase.base32.encode binary

/-- The binary form, which is also the key of a block. -/
def toBytes (identifier : ContentId) : Bytes :=
  binaryForm identifier.codec hashCode identifier.digest

/-- The text form. -/
def toText (identifier : ContentId) : String := textOfBinary identifier.toBytes

instance : ToString ContentId := ⟨toText⟩

/-- The order of identifiers: by codec, then by the length of the digest, then by its bytes. -/
def compare (first second : ContentId) : Ordering :=
  (Ord.compare first.codec second.codec).then <|
    (Ord.compare first.digest.length second.digest.length).then <|
      if first.digest < second.digest then .lt
      else if second.digest < first.digest then .gt
      else .eq

/-- Whether the bytes have the digest that the identifier names. -/
def names (identifier : ContentId) (content : Bytes) : Bool :=
  Sha256.digest content = identifier.digest

end ContentId

end TenantStore
