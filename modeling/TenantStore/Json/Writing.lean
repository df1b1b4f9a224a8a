import TenantStore.Json.Basic

/-!
# Writing JSON text

Documents are written without blanks.  In texts the quote, the backslash and the control characters
are escaped and every other character stands for itself.  A double is written in full: its
significand times a power of five as digits, and a power of ten as exponent, so nothing is rounded.
-/

namespace TenantStore.Json

/-- The lower-case hexadecimal digit of a number below 16. -/
def hexadecimalDigit (value : Nat) : Char :=
  if value < 10 then Char.ofNat (48 + value) else Char.ofNat (87 + value)

/-- The characters that stand for one character inside quotes. -/
def escape (character : Char) : List Char :=
  match character with
  | '"' => ['\\', '"']
  | '\\' => ['\\', '\\']
  | '\x08' => ['\\', 'b']
  | '\x0c' => ['\\', 'f']
  | '\n' => ['\\', 'n']
  | '\r' => ['\\', 'r']
  | '\t' => ['\\', 't']
  | _ =>
    if character.toNat < 0x20 then
      ['\\', 'u', '0', '0', hexadecimalDigit (character.toNat / 16),
        hexadecimalDigit (character.toNat % 16)]
    else [character]

/-- A text in quotes, as characters. -/
def writeText (text : String) : List Char := '"' :: (text.toList.flatMap escape ++ ['"'])

/-- The decimal digits of an integer. -/
def writeInteger (value : Int) : List Char :=
  if value < 0 then '-' :: Nat.toDigits 10 value.natAbs else Nat.toDigits 10 value.natAbs

/-- A finite double in full; an infinite or undefined one has no JSON text and is written as
null. -/
def writeDouble (double : Double) : List Char :=
  if double.isFinite then
    let sign := if double.isNegative then ['-'] else []
    let digits := double.significand <<< double.scale.toNat * Nat.pow 5 (-double.scale).toNat
    sign ++ Nat.toDigits 10 digits ++ 'e' :: writeInteger (min double.scale 0)
  else "null".toList

mutual

/-- A document as characters. -/
def write : Json → List Char
  | .null => "null".toList
  | .boolean value => if value then "true".toList else "false".toList
  | .integer value => writeInteger value
  | .double value => writeDouble value
  | .text value => writeText value
  | .array [] => ['[', ']']
  | .array (element :: rest) => '[' :: (write element ++ writeElements rest)
  | .object [] => ['{', '}']
  | .object ((name, document) :: rest) =>
    '{' :: (writeText name ++ ':' :: (write document ++ writeMembers rest))

/-- The elements after the first one, and the end of the list. -/
def writeElements : List Json → List Char
  | [] => [']']
  | element :: rest => ',' :: (write element ++ writeElements rest)

/-- The members after the first one, and the end of the object. -/
def writeMembers : List (String × Json) → List Char
  | [] => ['}']
  | (name, document) :: rest =>
    ',' :: (writeText name ++ ':' :: (write document ++ writeMembers rest))

end

/-- A document as text. -/
def render (document : Json) : String := String.ofList document.write

end TenantStore.Json
