/-!
# Bytes, hexadecimal text and UTF-8

Keys, values and payloads are lists of bytes, ordered lexicographically.  This module holds their
hexadecimal text, the UTF-8 bytes of a text and the two ways back from bytes to text: the strict
one, which refuses ill-formed input, and the lenient one, which shows each ill-formed part as the
replacement character.  A reader that may pass over ill-formed parts takes the bytes as
`Text.parts`.

The main statements are that both ways back undo `Text.bytes` (`ofBytes?_bytes`,
`ofBytesLenient_bytes`) and that hexadecimal reading undoes hexadecimal writing
(`ofHex?_toHex`).
-/

namespace TenantStore

/-- A finite sequence of bytes, ordered lexicographically. -/
abbrev Bytes := List UInt8

namespace Bytes

/-- The lower-case hexadecimal digit of a number below 16. -/
def hexDigit (value : Nat) : Char :=
  if value < 10 then Char.ofNat (48 + value) else Char.ofNat (87 + value)

/-- The value of a hexadecimal digit of either case. -/
def hexValue? (digit : Char) : Option Nat :=
  if '0' ≤ digit ∧ digit ≤ '9' then some (digit.toNat - 48)
  else if 'a' ≤ digit ∧ digit ≤ 'f' then some (digit.toNat - 87)
  else if 'A' ≤ digit ∧ digit ≤ 'F' then some (digit.toNat - 55)
  else none

/-- The two hexadecimal digits of each byte. -/
def hexDigits (bytes : Bytes) : List Char :=
  bytes.flatMap fun byte => [hexDigit (byte.toNat / 16), hexDigit (byte.toNat % 16)]

/-- The lower-case hexadecimal text of the bytes. -/
def toHex (bytes : Bytes) : String := String.ofList bytes.hexDigits

/-- The bytes whose digits, `reading` of them already read in reverse, are written. -/
def ofHexDigits? (reading : Bytes) : List Char → Option Bytes
  | [] => some reading.reverse
  | [_] => none
  | high :: low :: rest =>
    match hexValue? high, hexValue? low with
    | some upper, some lower => ofHexDigits? (UInt8.ofNat (16 * upper + lower) :: reading) rest
    | _, _ => none

/-- The bytes that a hexadecimal text of either case stands for. -/
def ofHex? (text : String) : Option Bytes := ofHexDigits? [] text.toList

theorem hexValue?_hexDigit (value : Nat) (small : value < 16) :
    hexValue? (hexDigit value) = some value := by
  have byCases : ∀ digit : Fin 16, hexValue? (hexDigit digit.val) = some digit.val := by decide
  exact byCases ⟨value, small⟩

theorem ofHexDigits?_hexDigits (bytes reading : Bytes) :
    ofHexDigits? reading bytes.hexDigits = some (reading.reverse ++ bytes) := by
  induction bytes generalizing reading with
  | nil => simp [hexDigits, ofHexDigits?]
  | cons byte rest ih =>
    have below : byte.toNat < 256 := byte.toNat_lt
    have joined : UInt8.ofNat (16 * (byte.toNat / 16) + byte.toNat % 16) = byte := by
      rw [Nat.div_add_mod]; exact UInt8.ofNat_toNat
    change ofHexDigits? reading
      (hexDigit (byte.toNat / 16) :: hexDigit (byte.toNat % 16) :: hexDigits rest) = _
    simp only [ofHexDigits?, hexValue?_hexDigit _ (show byte.toNat / 16 < 16 by omega),
      hexValue?_hexDigit _ (show byte.toNat % 16 < 16 by omega), joined, ih]
    simp

theorem ofHex?_toHex (bytes : Bytes) : ofHex? bytes.toHex = some bytes := by
  simp [ofHex?, toHex, ofHexDigits?_hexDigits]

/-- The lowest `width` bytes of a number, most significant first. -/
def bigEndian (width value : Nat) : Bytes :=
  (List.range width).map fun place => UInt8.ofNat (value >>> (8 * (width - 1 - place)))

/-- The number that bytes stand for, most significant first. -/
def toNat (bytes : Bytes) : Nat := bytes.foldl (fun value byte => value * 256 + byte.toNat) 0

end Bytes

namespace Text

/-- The UTF-8 bytes of a text. -/
def bytes (text : String) : Bytes := text.toByteArray.data.toList

/-- The text with these UTF-8 bytes, if they are well formed. -/
def ofBytes? (bytes : Bytes) : Option String := String.fromUTF8? ⟨bytes.toArray⟩

/-- The character shown for a part of a byte sequence that is not well-formed UTF-8. -/
def replacement : Char := '\uFFFD'

/-- For a lead byte of several bytes, how many follow and the bounds of the first of them. -/
def followers? (lead : UInt8) : Option (Nat × UInt8 × UInt8) :=
  if 0xC2 ≤ lead ∧ lead ≤ 0xDF then some (1, 0x80, 0xBF)
  else if lead = 0xE0 then some (2, 0xA0, 0xBF)
  else if lead = 0xED then some (2, 0x80, 0x9F)
  else if 0xE1 ≤ lead ∧ lead ≤ 0xEF then some (2, 0x80, 0xBF)
  else if lead = 0xF0 then some (3, 0x90, 0xBF)
  else if lead = 0xF4 then some (3, 0x80, 0x8F)
  else if 0xF1 ≤ lead ∧ lead ≤ 0xF3 then some (3, 0x80, 0xBF)
  else none

/-- The length of the longest start of `rest`, at most `count` bytes, that continues a character:
the first byte lies within the given bounds, the others between `0x80` and `0xBF`. -/
def continuation (count : Nat) (low high : UInt8) : Bytes → Nat
  | [] => 0
  | byte :: rest =>
    match count with
    | 0 => 0
    | left + 1 =>
      if low ≤ byte ∧ byte ≤ high then 1 + continuation left 0x80 0xBF rest else 0

/-- The character that a lead byte with all its followers stands for. -/
def assembled (lead : UInt8) (following : Bytes) : Char :=
  let payload := match following.length with
    | 1 => lead.toNat % 32
    | 2 => lead.toNat % 16
    | _ => lead.toNat % 8
  Char.ofNat (following.foldl (fun code byte => code * 64 + byte.toNat % 64) payload)

/-- The first character of `lead :: rest`, or none if they begin with no character, and the number
of bytes of `rest` that it takes; the start of a character that cannot be completed is taken
whole. -/
def nextPart (lead : UInt8) (rest : Bytes) : Option Char × Nat :=
  if lead < 0x80 then (some (Char.ofNat lead.toNat), 0)
  else
    match followers? lead with
    | none => (none, 0)
    | some (count, low, high) =>
      let taken := continuation count low high rest
      if taken = count then (some (assembled lead (rest.take count)), count) else (none, taken)

/-- The characters of a byte sequence, and none for each part of it that is ill formed. -/
def splitParts : Bytes → List (Option Char)
  | [] => []
  | lead :: rest =>
    let (part, taken) := nextPart lead rest
    part :: splitParts (rest.drop taken)
termination_by bytes => bytes.length
decreasing_by simp only [List.length_drop, List.length_cons]; omega

/-- The parts of a byte sequence: all of them are characters if it is well formed. -/
def parts (bytes : Bytes) : List (Option Char) :=
  match ofBytes? bytes with
  | some text => text.toList.map some
  | none => splitParts bytes

/-- The text of a byte sequence; each part that is not well formed becomes one replacement. -/
def ofBytesLenient (bytes : Bytes) : String :=
  String.ofList ((parts bytes).map fun part => part.getD replacement)

@[simp] theorem ofBytes?_bytes (text : String) : ofBytes? (bytes text) = some text := by
  have same : (⟨(bytes text).toArray⟩ : ByteArray) = text.toByteArray := by
    simp [bytes]
  rw [ofBytes?, same, String.fromUTF8?, dif_pos text.isValidUTF8]
  rfl

@[simp] theorem parts_bytes (text : String) : parts (bytes text) = text.toList.map some := by
  simp [parts]

@[simp] theorem ofBytesLenient_bytes (text : String) : ofBytesLenient (bytes text) = text := by
  simp [ofBytesLenient, Function.comp_def]

theorem bytes_injective {first second : String} (same : bytes first = bytes second) :
    first = second := by
  have := congrArg ofBytes? same
  simpa using this

end Text

end TenantStore
