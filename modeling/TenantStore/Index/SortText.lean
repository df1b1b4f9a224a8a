import TenantStore.Query.IndexValue

/-!
# Index values as segments of keys

A value is written so that the bytes of two values of one kind compare as the values do: a text
behind a quote, a truth value as its name, and an integer in 19 decimal digits.  A negative integer
is raised by `2 ^ 63` and stands behind an exclamation mark, which sorts below every digit.
-/

namespace TenantStore.IndexValue

/-- The number of digits of an integer. -/
def digitCount : Nat := 19

/-- A number in decimal digits, filled with zeros in front. -/
def paddedDigits (value : Nat) : String :=
  let digits := Nat.toDigits 10 value
  String.ofList (List.replicate (digitCount - digits.length) '0' ++ digits)

/-- The written form of an integer. -/
def integerText (value : Int64) : String :=
  if value.toInt < 0 then "!" ++ paddedDigits (value.toInt - Int64.minValue.toInt).toNat
  else paddedDigits value.toInt.toNat

/-- The written form of a value. -/
def sortText : IndexValue → String
  | .text value => "\"" ++ value
  | .boolean true => "true"
  | .boolean false => "false"
  | .integer value => integerText value

/-- The bytes of the written form, which are a segment of a key. -/
def sortBytes (value : IndexValue) : Bytes := Text.bytes value.sortText

end TenantStore.IndexValue
