import TenantStore.Bytes
import TenantStore.Json.Basic

/-!
# Reading JSON text

A literal without point and exponent is an integer if it lies between `-2 ^ 63` and `2 ^ 64 - 1`;
`-0`, any other integer and every literal with a point or an exponent is a double, infinite if it is
too large.  The double is computed in steps: the leading digits that fit 64 bits are rounded to a
double, the other digits count only for their places, and the product or quotient with the power of
ten is rounded again, so the last bit can differ from that of the nearest double.  Escapes name
UTF-16 units, and a unit that is half of a pair must be followed by the other half.

The reader works on the parts of a byte sequence, and what is no character ends it.  Of a record
only some members are kept: the others are passed over, and the texts inside them may then hold
parts that are no characters and lone halves of pairs, but nothing else that is not JSON.
-/

namespace TenantStore.Json

/-- What a document is read from: characters, and none for each part of the bytes that is no
character. -/
abbrev Input := List (Option Char)

/-- The characters that may stand between the tokens of a document. -/
def isBlank (character : Char) : Bool :=
  character = ' ' || character = '\n' || character = '\t' || character = '\r'

/-- The input after the blanks in front. -/
def skipBlanks (input : Input) : Input := input.dropWhile fun part => part.any isBlank

/-- The value of a hexadecimal digit. -/
def hexadecimal? (digit : Char) : Option Nat :=
  if '0' ≤ digit ∧ digit ≤ '9' then some (digit.toNat - 48)
  else if 'a' ≤ digit ∧ digit ≤ 'f' then some (digit.toNat - 87)
  else if 'A' ≤ digit ∧ digit ≤ 'F' then some (digit.toNat - 55)
  else none

/-- The UTF-16 unit that four hexadecimal digits name. -/
def unit? (first second third fourth : Char) : Option Nat := do
  some ((((← hexadecimal? first) * 16 + (← hexadecimal? second)) * 16 +
    (← hexadecimal? third)) * 16 + (← hexadecimal? fourth))

/-- The character of an escape by one letter. -/
def escaped? : Char → Option Char
  | '"' => some '"'
  | '\\' => some '\\'
  | '/' => some '/'
  | 'b' => some '\x08'
  | 'f' => some '\x0c'
  | 'n' => some '\n'
  | 'r' => some '\r'
  | 't' => some '\t'
  | _ => none

/-- Read a text up to the closing quote, `read` of it already read in reverse.  Of a text that is
not kept, what is no character is left out. -/
def readText (isKept : Bool) (read : List Char) : Input → Option (String × Input)
  | some '"' :: rest => some (String.ofList read.reverse, rest)
  | some '\\' :: some 'u' :: some first :: some second :: some third :: some fourth :: rest =>
    match unit? first second third fourth with
    | none => none
    | some unit =>
      if unit < 0xD800 ∨ 0xDFFF < unit then readText isKept (Char.ofNat unit :: read) rest
      else if !isKept then readText isKept read rest
      else
        match rest with
        | some '\\' :: some 'u' :: some fifth :: some sixth :: some seventh :: some eighth ::
            rest =>
          match unit? fifth sixth seventh eighth with
          | none => none
          | some low =>
            if unit < 0xDC00 ∧ 0xDC00 ≤ low ∧ low ≤ 0xDFFF then
              readText isKept
                (Char.ofNat (0x10000 + (unit - 0xD800) * 1024 + (low - 0xDC00)) :: read) rest
            else none
        | _ => none
  | some '\\' :: some letter :: rest =>
    match escaped? letter with
    | none => none
    | some character => readText isKept (character :: read) rest
  | some '\\' :: _ => none
  | some character :: rest =>
    if character.toNat < 0x20 then none else readText isKept (character :: read) rest
  | none :: rest => if isKept then none else readText isKept read rest
  | [] => none

/-- The number that decimal digits stand for. -/
def decimalValue (digits : List Char) : Nat :=
  digits.foldl (fun value digit => value * 10 + (digit.toNat - 48)) 0

/-- The digits in front, of which there is at least one. -/
def readDigits (input : Input) : Option (List Char × Input) :=
  let isDigit (part : Option Char) : Bool := part.any Char.isDigit
  match (input.takeWhile isDigit).filterMap id with
  | [] => none
  | digits => some (digits, input.dropWhile isDigit)

/-- The exponent in front, 0 if there is none, and whether one is written. -/
def readExponent (input : Input) : Option (Int × Bool × Input) :=
  match input with
  | some mark :: rest =>
    if mark = 'e' ∨ mark = 'E' then
      match rest with
      | some '-' :: rest => (readDigits rest).map fun (digits, rest) =>
          (-(decimalValue digits : Int), true, rest)
      | some '+' :: rest => (readDigits rest).map fun (digits, rest) =>
          ((decimalValue digits : Int), true, rest)
      | rest =>
        (readDigits rest).map fun (digits, rest) => ((decimalValue digits : Int), true, rest)
    else some (0, false, input)
  | _ => some (0, false, input)

/-- The digits after a point, none if there is no point, and whether one is written. -/
def readFraction (input : Input) : Option (List Char × Bool × Input) :=
  match input with
  | some '.' :: rest => (readDigits rest).map fun (digits, rest) => (digits, true, rest)
  | _ => some ([], false, input)

/-- The number that digits stand for behind those of `value`, as long as it is less than `2 ^ 64`,
and the digits that are left. -/
def leadingDigits (value : Nat) : List Char → Nat × List Char
  | [] => (value, [])
  | digit :: rest =>
    let longer := value * 10 + (digit.toNat - 48)
    if longer < UInt64.size then leadingDigits longer rest else (value, digit :: rest)

/-- The double that a literal stands for. -/
def doubleOfLiteral (negative : Bool) (whole fraction : List Char) (exponent : Int) : Double :=
  let (leading, wholeLeft) := leadingDigits 0 whole
  let (significand, fractionLeft) := leadingDigits leading fraction
  Double.ofSteps negative significand
    (exponent + wholeLeft.length + fractionLeft.length - fraction.length)

/-- The number that a literal stands for. -/
def ofLiteral (negative : Bool) (whole fraction : List Char) (exponent : Int) (plain : Bool) :
    Json :=
  let magnitude := decimalValue whole
  if plain ∧ ¬negative ∧ magnitude < UInt64.size then .integer magnitude
  else if plain ∧ negative ∧ 0 < magnitude ∧ magnitude ≤ 1 <<< 63 then .integer (-magnitude)
  else .double (doubleOfLiteral negative whole fraction exponent)

/-- Read an unsigned literal; a whole part of several digits does not begin with zero. -/
def readMagnitude (negative : Bool) (input : Input) : Option (Json × Input) := do
  let (whole, afterWhole) ← readDigits input
  if whole.head? = some '0' ∧ whole.length > 1 then none
  let (fraction, hasPoint, afterFraction) ← readFraction afterWhole
  let (exponent, hasExponent, rest) ← readExponent afterFraction
  some (ofLiteral negative whole fraction exponent (!hasPoint && !hasExponent), rest)

/-- Read a literal of a number. -/
def readNumber (input : Input) : Option (Json × Input) :=
  match input with
  | some '-' :: rest => readMagnitude true rest
  | _ => readMagnitude false input

/-- Read one or more items with commas between them up to the closing mark, at most `count` of them,
`read` of them already read in reverse. -/
def readItems {α : Type} (readOne : Input → Option (α × Input)) (close : Char) :
    (count : Nat) → (read : List α) → Input → Option (List α × Input)
  | 0, _, _ => none
  | count + 1, read, input =>
    match readOne input with
    | none => none
    | some (item, rest) =>
      match skipBlanks rest with
      | some ',' :: rest => readItems readOne close count (item :: read) (skipBlanks rest)
      | some mark :: rest => if mark = close then some ((item :: read).reverse, rest) else none
      | _ => none

/-- Read items behind an opening mark up to the closing one; there may be none. -/
def readEnclosed {α : Type} (readOne : Input → Option (α × Input)) (close : Char) (count : Nat)
    (input : Input) : Option (List α × Input) :=
  match skipBlanks input with
  | some mark :: rest =>
    if mark = close then some ([], rest) else readItems readOne close count [] (some mark :: rest)
  | _ => none

/-- Read a name, and the document behind it as the name says. -/
def readMember (isKept : Bool) (readNamed : String → Input → Option (Json × Input))
    (input : Input) : Option ((String × Json) × Input) :=
  match input with
  | some '"' :: rest =>
    match readText isKept [] rest with
    | none => none
    | some (name, rest) =>
      match skipBlanks rest with
      | some ':' :: rest =>
        (readNamed name (skipBlanks rest)).map fun (document, rest) => ((name, document), rest)
      | _ => none
  | _ => none

/-- Read a document that begins at the first part.  The fuel bounds both the depth and the number of
items side by side, so the length of the input suffices. -/
def readValue (isKept : Bool) : (fuel : Nat) → Input → Option (Json × Input)
  | 0, _ => none
  | fuel + 1, input =>
    match input with
    | some 'n' :: some 'u' :: some 'l' :: some 'l' :: rest => some (.null, rest)
    | some 't' :: some 'r' :: some 'u' :: some 'e' :: rest => some (.boolean true, rest)
    | some 'f' :: some 'a' :: some 'l' :: some 's' :: some 'e' :: rest =>
      some (.boolean false, rest)
    | some '"' :: rest => (readText isKept [] rest).map fun (value, rest) => (.text value, rest)
    | some '[' :: rest =>
      (readEnclosed (readValue isKept fuel) ']' fuel rest).map fun (elements, rest) =>
        (.array elements, rest)
    | some '{' :: rest =>
      (readEnclosed (readMember isKept fun _ => readValue isKept fuel) '}' fuel rest).map
        fun (members, rest) => (.object members, rest)
    | _ => readNumber input

/-- Read a record: of an object only the members of the given names are kept. -/
def readRecord (names : List String) (fuel : Nat) (input : Input) : Option (Json × Input) :=
  match input with
  | some '{' :: rest =>
    (readEnclosed (readMember true fun name => readValue (names.contains name) fuel) '}' fuel
      rest).map fun (members, rest) => (.object members, rest)
  | _ => readValue true fuel input

/-- Read an input that holds one document and nothing else but blanks. -/
def readWhole (readOne : (fuel : Nat) → Input → Option (Json × Input)) (input : Input) :
    Option Json :=
  match readOne (input.length + 1) (skipBlanks input) with
  | some (document, rest) => if (skipBlanks rest).isEmpty then some document else none
  | none => none

/-- The document that a text holds. -/
def parse? (text : String) : Option Json := readWhole (readValue true) (text.toList.map some)

/-- The document that the bytes hold. -/
def ofBytes? (bytes : Bytes) : Option Json := readWhole (readValue true) (Text.parts bytes)

/-- The record that the bytes hold, of which only the members of the given names are kept. -/
def recordOfBytes? (names : List String) (bytes : Bytes) : Option Json :=
  readWhole (readRecord names) (Text.parts bytes)

end TenantStore.Json
