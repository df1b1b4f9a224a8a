import TenantStore.Bytes

/-!
# Heads of CBOR items

An item begins with a head: a kind between 0 and 7 in the three high bits of the first byte, and a
number, which stands in the five low bits or in the 1, 2, 4 or 8 bytes that follow.  Writing takes
the fewest bytes; reading takes any form of the number.

A reader that knows which kind must come does not compare the kind.  It clears the bits of that kind
in the first byte and reads what is left as the low bits, so it takes every kind whose bits are
among those of the expected one, and refuses the others because their low bits are too large.
-/

namespace TenantStore.Cbor

/-- A reader takes what it wants from the front and hands on the rest. -/
abbrev Reader (α : Type) := Bytes → Option (α × Bytes)

/-- The kind of an item. -/
inductive Kind where
  | natural
  | negative
  | bytes
  | text
  | list
  | map
  | tag
  | simple
  deriving DecidableEq, Repr

/-- The number of a kind in the first byte of an item, in its three high bits. -/
def Kind.code : Kind → Nat
  | .natural => 0
  | .negative => 1
  | .bytes => 2
  | .text => 3
  | .list => 4
  | .map => 5
  | .tag => 6
  | .simple => 7

/-- The kind of the item with this first byte. -/
def Kind.ofLead (lead : UInt8) : Kind :=
  match lead.toNat / 32 with
  | 0 => .natural
  | 1 => .negative
  | 2 => .bytes
  | 3 => .text
  | 4 => .list
  | 5 => .map
  | 6 => .tag
  | _ => .simple

/-- The first byte of an item of a kind with these low bits. -/
def Kind.lead (kind : Kind) (low : Nat) : UInt8 := UInt8.ofNat (kind.code * 32 + low)

/-- The low bits that stand for no number: the item goes on up to a break. -/
def openEnd : Nat := 31

/-- The byte that ends an item without a length. -/
def breakByte : UInt8 := 0xFF

/-- The head of a kind and a number, in the fewest bytes. -/
def head (kind : Kind) (number : Nat) : Bytes :=
  if number < 24 then [kind.lead number]
  else if number < UInt8.size then kind.lead 24 :: Bytes.bigEndian 1 number
  else if number < UInt16.size then kind.lead 25 :: Bytes.bigEndian 2 number
  else if number < UInt32.size then kind.lead 26 :: Bytes.bigEndian 4 number
  else kind.lead 27 :: Bytes.bigEndian 8 number

/-- Take `count` bytes, if there are as many. -/
def takeExactly? (count : Nat) : Reader Bytes := fun bytes =>
  let taken := bytes.take count
  if taken.length = count then some (taken, bytes.drop count) else none

/-- Read the number of a head with these low bits. -/
def readNumber (low : Nat) : Reader Nat := fun bytes =>
  if low < 24 then some (low, bytes)
  else if low ≤ 27 then
    (takeExactly? (1 <<< (low - 24)) bytes).map fun (number, rest) => (number.toNat, rest)
  else none

/-- What is left of the first byte of an item without the bits of the expected kind. -/
def lowBits (kind : Kind) (lead : UInt8) : Nat := (lead &&& ~~~(kind.lead 0)).toNat

/-- Read the length of an item of the expected kind, none if the item goes on up to a break. -/
def readLength (kind : Kind) : Reader (Option Nat)
  | [] => none
  | lead :: rest =>
    if lead = kind.lead openEnd then some (none, rest)
    else (readNumber (lowBits kind lead) rest).map fun (length, rest) => (some length, rest)

/-- Read a list or a map of the expected kind up to its first item: the number of its items.  One
that goes on up to a break is refused. -/
def readCount (kind : Kind) : Reader Nat := fun bytes =>
  match readLength kind bytes with
  | some (some count, rest) => some (count, rest)
  | _ => none

/-- Read an integer that is not negative. -/
def readNatural : Reader Nat := readCount .natural

/-- The budget of depth for a whole input. -/
def wholeBudget : Nat := 256

/-- Read `count` items in sequence, `read` of them already read in reverse. -/
def readTimes {α : Type} (readOne : Reader α) (read : List α) : (count : Nat) → Reader (List α)
  | 0, bytes => some (read.reverse, bytes)
  | count + 1, bytes =>
    match readOne bytes with
    | none => none
    | some (item, rest) => readTimes readOne (item :: read) count rest

/-- Read items up to a break, at most `count` of them, `read` of them already read in reverse. -/
def readUntilBreak {α : Type} (readOne : Reader α) (read : List α) : (count : Nat) → Reader (List α)
  | 0, _ => none
  | count + 1, bytes =>
    if bytes.head? = some breakByte then some (read.reverse, bytes.tail)
    else
      match readOne bytes with
      | none => none
      | some (item, rest) => readUntilBreak readOne (item :: read) count rest

/-- Read the bytes of a text where a text must come.  One that goes on up to a break consists of
texts, each of which costs one unit of the budget of depth. -/
def readTextBytes : (budget : Nat) → Reader Bytes
  | budget, bytes =>
    match readLength .text bytes with
    | none => none
    | some (some length, rest) => takeExactly? length rest
    | some (none, rest) =>
      let readPart : Reader Bytes := match budget with
        | 0 => fun _ => none
        | inner + 1 => readTextBytes inner
      (readUntilBreak readPart [] (rest.length + 1) rest).map fun (parts, rest) =>
        (parts.flatten, rest)

/-- Read a text where a text must come. -/
def readText (budget : Nat) : Reader String := fun bytes => do
  let (content, rest) ← readTextBytes budget bytes
  some ((← Text.ofBytes? content), rest)

end TenantStore.Cbor
