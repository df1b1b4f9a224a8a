import TenantStore.ContentId.Basic

/-!
# Reading content identifiers

An identifier is read from its binary form or from a multibase text, which may stand behind a path
that contains `/ipfs/`.  Texts and bytes of the older version 0, and hash functions other than
SHA2-256, are recognised so that they can be refused by name.
-/

namespace TenantStore.ContentId

/-- Why a written form is no identifier at all. -/
inductive Unreadable where
  | tooShort
  /-- The text is in no known base, or the hash that follows the codec is malformed. -/
  | malformedHash
  | endOfInput
  | shortDigest
  /-- The version or the codec is not a well-formed number. -/
  | malformedNumber
  | statedVersionZero
  | unknownVersion
  deriving DecidableEq, Repr

/-- Why a written form does not give a usable identifier. -/
inductive Fault where
  /-- The form cannot be read; `written` is the text, if it was one. -/
  | unreadable (written : Option String) (reason : Unreadable)
  | versionZero (digest : Bytes)
  | otherHash (codec hash : UInt64) (digest : Bytes)
  /-- The identifier is none of a payload, since its codec is neither raw bytes nor a node. -/
  | notPayload (identifier : ContentId)

/-- The words for an unreadable form. -/
def Unreadable.message : Unreadable → String
  | .tooShort => "Input too short"
  | .malformedHash => "Failed to parse multihash"
  | .endOfInput => "unexpected end of file"
  | .shortDigest => "failed to fill whole buffer"
  | .malformedNumber => "Failed to decode unsigned varint format"
  | .statedVersionZero => "CIDv0 cannot be specified in CIDv1 format"
  | .unknownVersion => "Unrecognized CID version"

/-- The lower-case hexadecimal digits of a number, without leading zeros. -/
def hexadecimal (value : UInt64) : String := String.ofList (Nat.toDigits 16 value.toNat)

/-- The words for a fault. -/
def Fault.message : Fault → String
  | .unreadable none reason => reason.message
  | .unreadable (some written) reason => written ++ ": " ++ reason.message
  | .versionZero digest =>
    Multibase.base58.encode (0x12 :: 0x20 :: digest) ++ ": only CIDv1 is accepted"
  | .otherHash codec hash digest =>
    textOfBinary (binaryForm codec hash digest) ++ ": unsupported multihash 0x" ++ hexadecimal hash
  | .notPayload identifier =>
    identifier.toText ++ ": unsupported payload codec 0x" ++ hexadecimal identifier.codec

/-- What a binary form says before it is checked. -/
inductive Written where
  | versionZero (digest : Bytes)
  /-- Version 1: a codec, a hash code and a digest of at most 64 bytes. -/
  | versionOne (codec hash : UInt64) (digest : Bytes) (short : digest.length ≤ 64)

/-- Read the version or the codec. -/
def readNumber (bytes : Bytes) : Except Unreadable (UInt64 × Bytes) :=
  match Varint.decode bytes with
  | .ok read => .ok read
  | .error .endOfInput => .error .endOfInput
  | .error .malformed => .error .malformedNumber

/-- Read the hash code and the digest; bytes after the digest are ignored. -/
def readHash (codec : UInt64) (bytes : Bytes) : Except Unreadable Written :=
  match Varint.decode bytes with
  | .error _ => .error .malformedHash
  | .ok (hash, rest) =>
    match Varint.decode rest with
    | .error _ => .error .malformedHash
    | .ok (size, rest) =>
      if fits : size.toNat ≤ 64 ∧ size.toNat ≤ rest.length then
        .ok (.versionOne codec hash (rest.take size.toNat)
          (by rw [List.length_take]; omega))
      else .error .malformedHash

/-- Read a binary form. -/
def readBinary (bytes : Bytes) : Except Unreadable Written := do
  let (version, afterVersion) ← readNumber bytes
  let (codec, afterCodec) ← readNumber afterVersion
  if version = 0x12 ∧ codec = 0x20 then
    if 32 ≤ afterCodec.length then .ok (.versionZero (afterCodec.take 32))
    else .error .shortDigest
  else if version = 0 then .error .statedVersionZero
  else if version = 1 then readHash codec afterCodec
  else .error .unknownVersion

/-- The identifier, if the form is of version 1 and uses the one hash function. -/
def Written.check : Written → Except Fault ContentId
  | .versionZero digest => .error (.versionZero digest)
  | .versionOne codec hash digest short =>
    if hash = hashCode then .ok ⟨codec, digest, short⟩ else .error (.otherHash codec hash digest)

/-- The identifier that a binary form stands for. -/
def ofBytes (bytes : Bytes) : Except Fault ContentId :=
  match readBinary bytes with
  | .error reason => .error (.unreadable none reason)
  | .ok written => written.check

/-- The characters after the first occurrence of `mark`, if it occurs. -/
def afterFirst? (mark : List Char) : List Char → Option (List Char)
  | [] => if mark.isEmpty then some [] else none
  | text@(_ :: rest) =>
    if mark.isPrefixOf text then some (text.drop mark.length) else afterFirst? mark rest

/-- The part of a text that holds the identifier. -/
def identifierPart (text : String) : List Char :=
  (afterFirst? "/ipfs/".toList text.toList).getD text.toList

/-- Whether a text of 46 bytes and this beginning is of version 0, which names no base. -/
def isVersionZeroText (text : List Char) : Bool :=
  (String.ofList text).utf8ByteSize = 46 && "Qm".toList.isPrefixOf text

/-- The binary form that a text stands for. -/
def binaryOfText (text : String) : Except Unreadable Bytes :=
  let part := identifierPart text
  if (String.ofList part).utf8ByteSize < 2 then .error .tooShort
  else
    let decoded? :=
      if isVersionZeroText part then Multibase.base58.decode? part else Multibase.decode? part
    match decoded? with
    | some bytes => .ok bytes
    | none => .error .malformedHash

/-- The identifier that a text stands for. -/
def ofText (text : String) : Except Fault ContentId :=
  match binaryOfText text >>= readBinary with
  | .error reason => .error (.unreadable (some text) reason)
  | .ok written => written.check

end TenantStore.ContentId
