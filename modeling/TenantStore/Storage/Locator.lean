import TenantStore.Configuration.Basic

/-!
# Locators of relational databases

The path of a relational database is the name of a file, or a locator: the scheme `file:`, an empty
or local host, a name and, behind a question mark, options.  Two hexadecimal digits behind a percent
sign stand for a byte; what follows a number sign is left out.
-/

namespace TenantStore

/-- How a relational database is opened. -/
inductive TableAccess where
  | readOnly
  /-- For reading and writing, if it is there. -/
  | existing
  /-- For reading and writing; it is made if it is missing. -/
  | created
  | memory
  deriving DecidableEq, Repr

namespace TableAccess

/-- The access that a word of a locator names. -/
def ofName? : String → Option TableAccess
  | "ro" => some .readOnly
  | "rw" => some .existing
  | "rwc" => some .created
  | "memory" => some .memory
  | _ => none

/-- How much an access allows on a file. -/
def rank : TableAccess → Nat
  | .memory => 0
  | .readOnly => 1
  | .existing => 2
  | .created => 3

/-- The access that is wanted where one is held: a file is never opened for more than what is held,
but what is held in memory sets no bound. -/
def narrowed? (held wanted : TableAccess) : Option TableAccess :=
  if held = .memory ∨ wanted.rank ≤ held.rank then some wanted else none

end TableAccess

/-- What the path of a relational database says. -/
structure Locator where
  name : Bytes
  access : TableAccess := .created
  system : Option String := none
  immutable : Option Bool := none
  deriving DecidableEq, Repr

namespace Locator

/-- The byte that two hexadecimal digits stand for. -/
def escapedByte? (high low : Char) : Option UInt8 := do
  pure (UInt8.ofNat (16 * (← Bytes.hexValue? high) + (← Bytes.hexValue? low)))

/-- The bytes that a text with escapes stands for; an escaped zero ends it. -/
def unescape : List Char → Bytes
  | [] => []
  | '%' :: high :: low :: rest =>
    match escapedByte? high low with
    | none => Text.bytes "%" ++ unescape (high :: low :: rest)
    | some byte => if byte = 0 then [] else byte :: unescape rest
  | first :: rest => Text.bytes (String.singleton first) ++ unescape rest

/-- The text that a text with escapes stands for. -/
def unescaped (text : String) : String := Text.ofBytesLenient (unescape text.toList)

/-- The number that the digits of a base in front of a text write; one beyond the signed 32-bit
integers counts as zero. -/
def numberInFront (base : Nat) (isDigit : Char → Bool) (text : List Char) : Nat :=
  let values := (text.takeWhile isDigit).filterMap Bytes.hexValue?
  let number := values.foldl (fun number value => base * number + value) 0
  if number ≤ Int32.maxValue.toInt.toNat then number else 0

/-- The parts of a text before and after the first separator. -/
def cut (text separator : String) : String × String :=
  match text.splitOn separator with
  | [] => (text, "")
  | first :: rest => (first, separator.intercalate rest)

/-- The system of files that lies in memory. -/
def memorySystem : String := "memdb"

/-- The systems of files that a database can be opened on. -/
def systems : List String := ["unix", "unix-excl", "unix-dotfile", "unix-none", memorySystem]

/-- The number that stands in front of a text, in decimal digits, or in hexadecimal ones behind a
mark. -/
def number (text : List Char) : Nat :=
  let isHexDigit (digit : Char) : Bool := (Bytes.hexValue? digit).isSome
  match text with
  | '0' :: mark :: digit :: rest =>
    if (mark = 'x' || mark = 'X') && isHexDigit digit then
      numberInFront 16 isHexDigit (digit :: rest)
    else numberInFront 10 Char.isDigit text
  | _ => numberInFront 10 Char.isDigit text

/-- Whether a value means yes: a word for it in any case, or a number whose lowest byte is not
zero. -/
def isYes (value : String) : Bool :=
  match value.toList with
  | [] => false
  | first :: rest =>
    if first.isDigit then number (first :: rest) % UInt8.size ≠ 0
    else ["on", "yes", "true"].contains value.toLower

/-- Follow an option; one without a known name says nothing.  Of repeated options the last counts,
but for the declaration that nothing changes, of which the first does. -/
def withOption (locator : Locator) (option : String) : Option Locator :=
  let (name, value) := cut option "="
  let value := unescaped value
  match unescaped name with
  | "mode" => do
    let access ← locator.access.narrowed? (← TableAccess.ofName? value)
    some { locator with access }
  | "cache" => if ["shared", "private"].contains value then some locator else none
  | "vfs" => some { locator with system := some value }
  | "immutable" => some { locator with immutable := locator.immutable <|> some (isYes value) }
  | _ => some locator

/-- The rest of a locator behind the scheme and the host, if the host is this one. -/
def afterHost? (text : String) : Option String :=
  match text.splitOn "/" with
  | "" :: "" :: host :: path =>
    if host = "" ∨ host = "localhost" then some ("/".intercalate ("" :: path)) else none
  | _ => some text

/-- The locator that a path stands for. -/
def ofPath? (path : String) : Option Locator := do
  match path.toList with
  | 'f' :: 'i' :: 'l' :: 'e' :: ':' :: rest =>
    let text := (cut (← afterHost? (String.ofList rest)) "#").1
    let (name, options) := cut text "?"
    let locator ← (options.splitOn "&").foldlM withOption { name := unescape name.toList }
    if locator.system.all systems.contains then some locator else none
  | _ => some { name := Text.bytes path }

/-- Whether the database lies in no file at all. -/
def isUnnamed (locator : Locator) : Bool :=
  locator.name = [] || locator.name = Text.bytes memoryPath || locator.access = .memory

/-- Whether the database lies in the system of files in memory. -/
def isInMemorySystem (locator : Locator) : Bool :=
  !locator.isUnnamed && locator.system = some memorySystem

/-- The number of bytes of the longest name in the system of files in memory. -/
def longestMemoryName : Nat := 1016

/-- Whether nothing can be written. -/
def isReadOnly (locator : Locator) : Bool :=
  locator.access = .readOnly || (locator.immutable = some true && !locator.isUnnamed)

end Locator

end TenantStore
