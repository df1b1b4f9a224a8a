/-!
# Doubles as bits

A floating-point number of 64 bits is kept as its bits, so equality is equality of bits and every
question about a value is answered in exact arithmetic: the double nearest to a decimal, the double
that a decimal comes to when it is computed in rounded steps, the integer that a double is, and the
double of the same value as a 32-bit number.
-/

namespace TenantStore

/-- A floating-point number of 64 bits, given by its bits. -/
structure Double where
  bits : UInt64
  deriving DecidableEq, Repr

namespace Double

/-- The bit that tells the sign, in its place. -/
def signBit (negative : Bool) : Nat := if negative then 1 <<< 63 else 0

/-- Whether the sign is set. -/
def isNegative (double : Double) : Bool := double.bits.toNat ≥ 1 <<< 63

/-- The eleven bits of the exponent. -/
def exponentField (double : Double) : Nat := double.bits.toNat >>> 52 % 2048

/-- The fifty-two bits of the fraction. -/
def fractionField (double : Double) : Nat := double.bits.toNat % (1 <<< 52)

/-- Whether the double is a number, neither infinite nor undefined. -/
def isFinite (double : Double) : Bool := double.exponentField ≠ 2047

/-- The significand of a finite double, an integer. -/
def significand (double : Double) : Nat :=
  if double.exponentField = 0 then double.fractionField else (1 <<< 52) + double.fractionField

/-- The power of two that the significand of a finite double is multiplied by. -/
def scale (double : Double) : Int := max double.exponentField 1 - 1075

/-- The infinite double of a sign. -/
def infinite (negative : Bool) : Double := ⟨UInt64.ofNat (signBit negative + (2047 <<< 52))⟩

/-- The integer nearest to `numerator / denominator`; a tie goes to the even one. -/
def roundToEven (numerator denominator : Nat) : Nat :=
  let quotient := numerator / denominator
  let doubled := 2 * (numerator % denominator)
  if doubled < denominator then quotient
  else if denominator < doubled then quotient + 1
  else quotient + quotient % 2

/-- The double nearest to the positive number `numerator / denominator`, infinite if that is too
large; a tie goes to the even significand. -/
def nearest (negative : Bool) (numerator denominator : Nat) : Double :=
  let estimate : Int := numerator.log2 - denominator.log2
  let above (exponent : Int) : Bool :=
    numerator <<< (-exponent).toNat < denominator <<< exponent.toNat
  let leading := if above estimate then estimate - 1 else estimate
  let scale := max (leading - 52) (-1074)
  let rounded := roundToEven (numerator <<< (-scale).toNat) (denominator <<< scale.toNat)
  let magnitude := ((scale + 1074).toNat <<< 52) + rounded
  if magnitude < 2047 <<< 52 then ⟨UInt64.ofNat (signBit negative + magnitude)⟩
  else infinite negative

/-- The double nearest to `numerator / denominator`, infinite if that is too large. -/
def ofRatio (negative : Bool) (numerator denominator : Nat) : Double :=
  if numerator = 0 then ⟨UInt64.ofNat (signBit negative)⟩
  else nearest negative numerator denominator

/-- The numerator of the magnitude of a finite double. -/
def numerator (double : Double) : Nat := double.significand <<< double.scale.toNat

/-- The denominator of the magnitude of a finite double, a power of two. -/
def denominator (double : Double) : Nat := 1 <<< (-double.scale).toNat

/-- The double nearest to `digits * 10 ^ exponent` with the given sign. -/
def ofDecimal (negative : Bool) (digits : Nat) (exponent : Int) : Double :=
  let magnitude : Int := (Nat.toDigits 10 digits).length + exponent
  if digits = 0 ∨ magnitude < -400 then ofRatio negative 0 1
  else if 400 < magnitude then infinite negative
  else ofRatio negative (digits * Nat.pow 10 exponent.toNat) (Nat.pow 10 (-exponent).toNat)

/-- The rounded product of a finite double and the double nearest to `10 ^ exponent`. -/
def timesPower (double : Double) (exponent : Nat) : Double :=
  let power := ofDecimal false 1 exponent
  ofRatio double.isNegative (double.numerator * power.numerator)
    (double.denominator * power.denominator)

/-- The rounded quotient of a finite double and the double nearest to `10 ^ exponent`. -/
def overPower (double : Double) (exponent : Nat) : Double :=
  let power := ofDecimal false 1 exponent
  ofRatio double.isNegative (double.numerator * power.denominator)
    (double.denominator * power.numerator)

/-- The largest power of ten that is a finite double. -/
def largestPower : Nat := 308

/-- The double `significand * 10 ^ exponent` as it is found with doubles alone: the significand,
less than `2 ^ 64`, is rounded, and so is its product or quotient with a power of ten.  Below the
largest power the quotient is taken in two steps; what needs a third is zero. -/
def ofSteps (negative : Bool) (significand : Nat) (exponent : Int) : Double :=
  let rounded := ofRatio negative significand 1
  if significand = 0 then rounded
  else if (largestPower : Int) < exponent then infinite negative
  else if 0 ≤ exponent then rounded.timesPower exponent.toNat
  else
    let places := (-exponent).toNat
    if places ≤ largestPower then rounded.overPower places
    else if places ≤ 2 * largestPower then
      (rounded.overPower largestPower).overPower (places - largestPower)
    else ofRatio negative 0 1

/-- The integer that a finite double is equal to, if there is one. -/
def toInt? (double : Double) : Option Int :=
  if double.isFinite then
    let shift := double.scale
    let numerator := double.significand <<< shift.toNat
    let denominator := 1 <<< (-shift).toNat
    if numerator % denominator = 0 then
      let magnitude : Int := numerator / denominator
      some (if double.isNegative then -magnitude else magnitude)
    else none
  else none

/-- The double with the value of a 32-bit floating-point number, given by its bits. -/
def ofSingleBits (bits : UInt32) : Double :=
  let negative := bits.toNat ≥ 1 <<< 31
  let exponent := bits.toNat >>> 23 % 256
  let fraction := bits.toNat % (1 <<< 23)
  if exponent = 255 then
    ⟨UInt64.ofNat (signBit negative + (2047 <<< 52) + (fraction <<< 29))⟩
  else if exponent = 0 then
    if fraction = 0 then ⟨UInt64.ofNat (signBit negative)⟩
    else nearest negative fraction (1 <<< 149)
  else ⟨UInt64.ofNat (signBit negative + ((exponent + 896) <<< 52) + (fraction <<< 29))⟩

end Double

end TenantStore
