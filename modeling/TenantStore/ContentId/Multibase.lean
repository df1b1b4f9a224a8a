import TenantStore.Bytes
import TenantStore.Grouping

/-!
# Multibase text

A self-describing text for bytes: its first character names an alphabet and the rest are digits.
Alphabets whose size is a power of two cut the bytes into groups of bits, most significant first;
reading them is strict, so leftover bits are fewer than one digit and zero, and a padded alphabet
fills its last block with the padding character.  The other alphabets write the bytes as one number,
with a zero digit for each leading zero byte.
-/

namespace TenantStore.Multibase

/-- The binary digits of a number below `2 ^ width`, most significant first. -/
def bitsOf (width value : Nat) : List Bool :=
  (List.range width).map fun place => value.testBit (width - 1 - place)

/-- The number that binary digits stand for. -/
def ofBits (bits : List Bool) : Nat := bits.foldl (fun value bit => 2 * value + bit.toNat) 0

/-- An alphabet whose size is a power of two. -/
structure BitAlphabet where
  width : Nat
  digits : String
  caseFree : Bool := false
  /-- The number of digits of a padded block, for an alphabet with padding. -/
  block : Option Nat := none

/-- The position of a character among the digits. -/
def digitValue? (digits : String) (caseFree : Bool) (character : Char) : Option Nat :=
  let character := if caseFree then character.toLower else character
  digits.toList.idxOf? character

/-- The digits of the bytes, without padding. -/
def BitAlphabet.encode (alphabet : BitAlphabet) (bytes : Bytes) : String :=
  let bits := bytes.flatMap fun byte => bitsOf 8 byte.toNat
  let count := (bits.length + alphabet.width - 1) / alphabet.width
  let filled := bits ++ List.replicate (count * alphabet.width - bits.length) false
  let digits := alphabet.digits.toList
  String.ofList ((groups alphabet.width filled).map fun group => digits.getD (ofBits group) ' ')

/-- Read digits without padding: the bits left over are fewer than one digit, and all zero. -/
def BitAlphabet.decodeDigits? (alphabet : BitAlphabet) (digits : List Char) : Option Bytes := do
  let values ← digits.mapM (digitValue? alphabet.digits alphabet.caseFree)
  let bits := values.flatMap (bitsOf alphabet.width)
  let leftover := bits.drop (bits.length / 8 * 8)
  if leftover.length < alphabet.width ∧ leftover.all (! ·) then
    some ((firstGroups 8 (bits.length / 8) bits).map fun group => UInt8.ofNat (ofBits group))
  else none

/-- The character that fills a padded block. -/
def padding : Char := '='

/-- Read one padded block, which holds at least one digit. -/
def BitAlphabet.decodeBlock? (alphabet : BitAlphabet) (block : List Char) : Option Bytes :=
  let digits := (block.reverse.dropWhile (· = padding)).reverse
  if digits.isEmpty then none else alphabet.decodeDigits? digits

/-- Read the digits of a text, with the padding that the alphabet asks for. -/
def BitAlphabet.decode? (alphabet : BitAlphabet) (text : List Char) : Option Bytes :=
  match alphabet.block with
  | none => alphabet.decodeDigits? text
  | some size =>
    if text.length % size = 0 then
      ((groups size text).mapM alphabet.decodeBlock?).map List.flatten
    else none

/-- An alphabet that writes the bytes as one number. -/
structure NumberAlphabet where
  digits : String
  caseFree : Bool := false

/-- The digits of a number in the given base, least significant first. -/
def placeValues (base : Nat) : (fuel : Nat) → Nat → List Nat
  | 0, _ => []
  | fuel + 1, value =>
    if value = 0 then [] else value % base :: placeValues base fuel (value / base)

/-- The digits of the bytes: one zero digit for each leading zero byte, then those of the number
that the remaining bytes stand for in base 256. -/
def NumberAlphabet.encode (alphabet : NumberAlphabet) (bytes : Bytes) : String :=
  let digits := alphabet.digits.toList
  let zeros := (bytes.takeWhile (· = 0)).length
  let values := List.replicate zeros 0 ++
    (placeValues digits.length (8 * bytes.length) bytes.toNat).reverse
  String.ofList (values.map fun value => digits.getD value ' ')

/-- Read the digits of a number, a zero byte for each leading zero digit. -/
def NumberAlphabet.decode? (alphabet : NumberAlphabet) (text : List Char) : Option Bytes := do
  let values ← text.mapM (digitValue? alphabet.digits alphabet.caseFree)
  let zeros := (values.takeWhile (· = 0)).length
  let number := values.foldl (fun number value => number * alphabet.digits.length + value) 0
  some (List.replicate zeros 0 ++
    (placeValues 256 (8 * text.length) number).reverse.map UInt8.ofNat)

/-- The alphabet of base 32, lower case and unpadded. -/
def base32 : BitAlphabet := ⟨5, "abcdefghijklmnopqrstuvwxyz234567", true, none⟩

/-- The alphabet of base 32 that keeps the order of the bytes. -/
def base32Hex : BitAlphabet := ⟨5, "0123456789abcdefghijklmnopqrstuv", true, none⟩

/-- The digits of base 64, in the order of their values. -/
def base64Digits : String := "ABCDEFGHIJKLMNOPQRSTUVWXYZabcdefghijklmnopqrstuvwxyz0123456789+/"

/-- The digits of base 64 that need no escape in a path. -/
def base64PathDigits : String := "ABCDEFGHIJKLMNOPQRSTUVWXYZabcdefghijklmnopqrstuvwxyz0123456789-_"

/-- The alphabet of base 58 without `0`, `O`, `I` and `l`, upper case first. -/
def base58 : NumberAlphabet := ⟨"123456789ABCDEFGHJKLMNPQRSTUVWXYZabcdefghijkmnopqrstuvwxyz", false⟩

/-- The alphabet of base 58, lower case first. -/
def base58Swapped : NumberAlphabet :=
  ⟨"123456789abcdefghijkmnopqrstuvwxyzABCDEFGHJKLMNPQRSTUVWXYZ", false⟩

/-- Read the digits that follow the character `code`, which names the alphabet. -/
def decodeAs? (code : Char) (text : List Char) : Option Bytes :=
  match code with
  | '\x00' => some (Text.bytes (String.ofList text))
  | '0' => (BitAlphabet.mk 1 "01" false none).decode? text
  | '7' => (BitAlphabet.mk 3 "01234567" false none).decode? text
  | '9' => (NumberAlphabet.mk "0123456789" false).decode? text
  | 'f' | 'F' => (BitAlphabet.mk 4 "0123456789abcdef" true none).decode? text
  | 'b' | 'B' => base32.decode? text
  | 'c' | 'C' => { base32 with block := some 8 }.decode? text
  | 'v' | 'V' => base32Hex.decode? text
  | 't' | 'T' => { base32Hex with block := some 8 }.decode? text
  | 'h' => (BitAlphabet.mk 5 "ybndrfg8ejkmcpqxot1uwisza345h769" false none).decode? text
  | 'k' | 'K' => (NumberAlphabet.mk "0123456789abcdefghijklmnopqrstuvwxyz" true).decode? text
  | 'Z' => base58Swapped.decode? text
  | 'z' => base58.decode? text
  | 'm' => (BitAlphabet.mk 6 base64Digits false none).decode? text
  | 'M' => (BitAlphabet.mk 6 base64Digits false (some 4)).decode? text
  | 'u' => (BitAlphabet.mk 6 base64PathDigits false none).decode? text
  | 'U' => (BitAlphabet.mk 6 base64PathDigits false (some 4)).decode? text
  | '🚀' => if text.isEmpty then some [] else none
  | _ => none

/-- The bytes that a multibase text stands for. -/
def decode? (text : List Char) : Option Bytes :=
  match text with
  | [] => none
  | code :: digits => decodeAs? code digits

end TenantStore.Multibase
