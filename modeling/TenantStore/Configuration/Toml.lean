import TenantStore.Configuration.Section
import TenantStore.Json.Reading

/-!
# Settings as TOML

The part of TOML that settings use: headers of sections, values with bare, quoted and dotted names,
texts on one line, integers of 64 bits, floating-point numbers, truth values and comments.  Every
line stands alone.  The settings are read as a document whose objects are the sections.
-/

namespace TenantStore.Toml

/-- Blanks inside a line. -/
def isBlank (character : Char) : Bool := character = ' ' || character = '\t'

/-- The text after the blanks in front. -/
def skipBlanks (characters : List Char) : List Char := characters.dropWhile isBlank

/-- Whether a character may stand in a comment or a text: a tabulator, or none of the control
characters. -/
def isPrintable (character : Char) : Bool :=
  character = '\t' || (0x20 ≤ character.toNat && character.toNat ≠ 0x7F)

/-- Whether nothing but blanks and a comment is left of a line. -/
def isLineEnd (characters : List Char) : Bool :=
  match skipBlanks characters with
  | [] => true
  | '#' :: comment => comment.all isPrintable
  | _ => false

/-- The character of an escape by one letter. -/
def escaped? : Char → Option Char
  | '"' => some '"'
  | '\\' => some '\\'
  | 'b' => some '\x08'
  | 'f' => some '\x0c'
  | 'n' => some '\n'
  | 'r' => some '\r'
  | 't' => some '\t'
  | _ => none

/-- The character whose code point these hexadecimal digits write. -/
def codePoint? (digits : List Char) : Option Char := do
  let values ← digits.mapM Json.hexadecimal?
  let code := values.foldl (fun code value => code * 16 + value) 0
  if code.isValidChar then some (Char.ofNat code) else none

/-- Read a text up to the closing double quote, `read` of it already read in reverse. -/
def readQuoted (read : List Char) : List Char → Option (String × List Char)
  | '"' :: rest => some (String.ofList read.reverse, rest)
  | '\\' :: 'u' :: first :: second :: third :: fourth :: rest =>
    match codePoint? [first, second, third, fourth] with
    | some character => readQuoted (character :: read) rest
    | none => none
  | '\\' :: 'U' :: first :: second :: third :: fourth :: fifth :: sixth :: seventh :: eighth ::
      rest =>
    match codePoint? [first, second, third, fourth, fifth, sixth, seventh, eighth] with
    | some character => readQuoted (character :: read) rest
    | none => none
  | '\\' :: letter :: rest =>
    match escaped? letter with
    | some character => readQuoted (character :: read) rest
    | none => none
  | character :: rest =>
    if isPrintable character then readQuoted (character :: read) rest else none
  | [] => none

/-- Read a text up to the closing single quote, in which nothing is escaped. -/
def readLiteral (characters : List Char) : Option (String × List Char) :=
  let content := characters.takeWhile fun character => character ≠ '\''
  match characters.dropWhile fun character => character ≠ '\'' with
  | [] => none
  | _ :: rest => if content.all isPrintable then some (String.ofList content, rest) else none

/-- Whether a character may stand in a name without quotes. -/
def isBare (character : Char) : Bool :=
  character.isAlphanum || character = '_' || character = '-'

/-- Read one part of a name. -/
def readName (characters : List Char) : Option (String × List Char) :=
  match characters with
  | '"' :: rest => readQuoted [] rest
  | '\'' :: rest => readLiteral rest
  | _ =>
    match characters.takeWhile isBare with
    | [] => none
    | name => some (String.ofList name, characters.dropWhile isBare)

/-- Read a name of at most `parts` parts and the blanks around them. -/
def readPathWithin : (parts : Nat) → List Char → Option (List String × List Char)
  | 0, _ => none
  | parts + 1, characters =>
    match readName (skipBlanks characters) with
    | none => none
    | some (name, rest) =>
      match skipBlanks rest with
      | '.' :: rest => (readPathWithin parts rest).map fun (path, rest) => (name :: path, rest)
      | rest => some ([name], rest)

/-- The greatest number of parts of a name. -/
def longestPath : Nat := 79

/-- Read a name of one or more parts and the blanks around them. -/
def readPath (characters : List Char) : Option (List String × List Char) :=
  readPathWithin longestPath characters

/-- Digits between which single underscores may stand. -/
def groupedDigits? (isDigit : Char → Bool) : List Char → Option (List Char)
  | [] => none
  | [digit] => if isDigit digit then some [digit] else none
  | digit :: '_' :: rest =>
    if isDigit digit then (groupedDigits? isDigit rest).map (digit :: ·) else none
  | digit :: rest =>
    if isDigit digit then (groupedDigits? isDigit rest).map (digit :: ·) else none

/-- The integer as a document, if it has 64 bits. -/
def integer? (value : Int) : Option Json :=
  if Int64.minValue.toInt ≤ value ∧ value ≤ Int64.maxValue.toInt then some (.integer value)
  else none

/-- The integer that digits of a base write. -/
def based? (base : Nat) (digits : List Char) : Option Json := do
  let isDigit (digit : Char) : Bool :=
    match Json.hexadecimal? digit with
    | some value => value < base
    | none => false
  let grouped ← groupedDigits? isDigit digits
  let values ← grouped.mapM Json.hexadecimal?
  let value : Nat := values.foldl (fun value digit => value * base + digit) 0
  integer? value

/-- Digits without a zero in front of others. -/
def wholeDigits? (characters : List Char) : Option (List Char) :=
  match groupedDigits? Char.isDigit characters with
  | some ('0' :: _ :: _) => none
  | found => found

/-- The exponent behind its mark. -/
def exponent? (characters : List Char) : Option Int :=
  let magnitude? (digits : List Char) : Option Int :=
    (groupedDigits? Char.isDigit digits).map fun digits => Json.decimalValue digits
  match characters with
  | '-' :: digits => (magnitude? digits).map Neg.neg
  | '+' :: digits => magnitude? digits
  | digits => magnitude? digits

/-- Whether a character ends the whole part of a number. -/
def endsWhole (character : Char) : Bool := character = '.' || isMark character
where
  isMark (character : Char) : Bool := character = 'e' || character = 'E'

/-- The floating-point number of these digits and this exponent; one that is too large and positive
is none. -/
def floating? (negative : Bool) (whole fraction : List Char) (exponent : Int) : Option Json :=
  let double := Double.ofDecimal negative (Json.decimalValue (whole ++ fraction))
    (exponent - fraction.length)
  if double = Double.infinite false then none else some (.double double)

/-- The number that a decimal literal without its sign stands for. -/
def decimal? (negative : Bool) (characters : List Char) : Option Json := do
  let whole ← wholeDigits? (characters.takeWhile fun character => !endsWhole character)
  match characters.dropWhile fun character => !endsWhole character with
  | [] =>
    let magnitude : Int := Json.decimalValue whole
    integer? (if negative then -magnitude else magnitude)
  | '.' :: rest =>
    let fraction ← groupedDigits? Char.isDigit
      (rest.takeWhile fun character => !endsWhole.isMark character)
    match rest.dropWhile fun character => !endsWhole.isMark character with
    | [] => floating? negative whole fraction 0
    | _ :: exponent => floating? negative whole fraction (← exponent? exponent)
  | _ :: exponent => floating? negative whole [] (← exponent? exponent)

/-- A double that is no number. -/
def undefinedDouble : Double := ⟨0x7FF8000000000000⟩

/-- The number behind a sign. -/
def signed? (negative : Bool) (characters : List Char) : Option Json :=
  match characters with
  | ['i', 'n', 'f'] => some (.double (.infinite negative))
  | ['n', 'a', 'n'] => some (.double undefinedDouble)
  | _ => decimal? negative characters

/-- The value that a word without quotes stands for. -/
def word? (characters : List Char) : Option Json :=
  match characters with
  | ['t', 'r', 'u', 'e'] => some (.boolean true)
  | ['f', 'a', 'l', 's', 'e'] => some (.boolean false)
  | '0' :: 'x' :: digits => based? 16 digits
  | '0' :: 'o' :: digits => based? 8 digits
  | '0' :: 'b' :: digits => based? 2 digits
  | '+' :: rest => signed? false rest
  | '-' :: rest => signed? true rest
  | _ => signed? false characters

/-- Whether a character may stand in a word. -/
def isWord (character : Char) : Bool := isBare character || character = '+' || character = '.'

/-- Read a value from the beginning of a line: a quoted text, a literal text or a word. -/
def readValue (characters : List Char) : Option (Json × List Char) :=
  match characters with
  | '"' :: rest => (readQuoted [] rest).map fun (content, rest) => (.text content, rest)
  | '\'' :: rest => (readLiteral rest).map fun (content, rest) => (.text content, rest)
  | _ =>
    (word? (characters.takeWhile isWord)).map fun value => (value, characters.dropWhile isWord)

/-- What a line says. -/
inductive Line where
  | blank
  | header (path : List String)
  | setting (path : List String) (value : Json)

/-- The path of a header behind its opening bracket. -/
def header? (characters : List Char) : Option Line :=
  match readPath characters with
  | some (path, ']' :: rest) => if isLineEnd rest then some (.header path) else none
  | _ => none

/-- The name and the value of a line. -/
def setting? (characters : List Char) : Option Line :=
  match readPath characters with
  | some (path, '=' :: rest) =>
    match readValue (skipBlanks rest) with
    | some (value, rest) => if isLineEnd rest then some (.setting path value) else none
    | none => none
  | _ => none

/-- Read a line without its end. -/
def line? (characters : List Char) : Option Line :=
  if isLineEnd characters then some .blank
  else
    match skipBlanks characters with
    | '[' :: rest => header? rest
    | rest => setting? rest

/-- The lines of a text; a line feed ends a line, with or without a carriage return in front. -/
def lines : List Char → List (List Char)
  | [] => [[]]
  | '\n' :: rest => [] :: lines rest
  | '\r' :: '\n' :: rest => [] :: lines rest
  | character :: rest =>
    match lines rest with
    | [] => [[character]]
    | line :: others => (character :: line) :: others

/-- Settings that were read so far. -/
structure Settings where
  members : SectionMembers := []
  path : List String := []

/-- The settings after one more line. -/
def Settings.add? (settings : Settings) (line : Line) : Option Settings :=
  match line with
  | .blank => some settings
  | .header path => (settings.members.declare? path).map fun members => ⟨members, path⟩
  | .setting path value =>
    (settings.members.within? (fun held => held.define? value path) settings.path).map
      fun members => { settings with members }

/-- Whether a document is a section without members, which stands for nothing. -/
def isEmptySection : Json → Bool
  | .object [] => true
  | _ => false

/-- The text without a byte order mark in front. -/
def withoutMark (characters : List Char) : List Char :=
  match characters with
  | '\uFEFF' :: rest => rest
  | _ => characters

/-- The settings of a text, as a document. -/
def parse? (text : String) : Option Json := do
  let read ← (lines (withoutMark text.toList)).mapM line?
  let settings ← read.foldlM Settings.add? {}
  some (SectionEntry.inner .declared settings.members).toJson

end TenantStore.Toml
