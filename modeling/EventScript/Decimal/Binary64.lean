/-
Double-precision numbers. A number is its 64 bits; what it is worth is read off exactly,
as a whole multiple of the smallest positive double (`units`). Order, equality of value,
conversion from integers and ratios and truncation are therefore arithmetic on `Int` and
`Nat`; only the four operations and the power are the machine's.
-/
namespace EventScript.Decimal

/-- A double by its bits: sign, eleven bits of exponent, fifty-two of fraction. -/
structure Binary64 where
  bits : UInt64
deriving DecidableEq, Repr

namespace Binary64

/-- The bits of positive infinity; larger magnitudes are no numbers. -/
def infinityBits : Nat := 0x7FF0000000000000

/-- The exponent of two by which a unit, the smallest positive double, is below one. -/
def unitShift : Nat := 1074

/-- The bit of the sign. -/
def signBit : Nat := 0x8000000000000000

/-- The lowest bit of the exponent; the bits below are the fraction. -/
def exponentBit : Nat := 0x10000000000000

/-- The bits without the sign. -/
def magnitudeBits (x : Binary64) : Nat := x.bits.toNat % signBit

/-- Whether the sign bit is set. -/
def isNegative (x : Binary64) : Bool := signBit ≤ x.bits.toNat

/-- A bit pattern without a sign and a sign. -/
def ofMagnitudeBits (negative : Bool) (m : Nat) : Binary64 :=
  ⟨UInt64.ofNat (if negative then signBit + m else m)⟩

/-- Positive zero. -/
def zero : Binary64 := ofMagnitudeBits false 0

/-- Infinity of either sign. -/
def infinity (negative : Bool) : Binary64 := ofMagnitudeBits negative infinityBits

/-- The quiet NaN without a sign and without further bits. -/
def nan : Binary64 := ofMagnitudeBits false (infinityBits + exponentBit / 2)

/-- Whether it is neither infinite nor a NaN. -/
def isFinite (x : Binary64) : Bool := x.magnitudeBits < infinityBits

/-- Whether it is not a number. -/
def isNaN (x : Binary64) : Bool := infinityBits < x.magnitudeBits

/-- The worth, in units, of a bit pattern without sign. A pattern with exponent zero is its
fraction; the next exponents double the step between neighbours from there on. -/
def unitsOfBits (m : Nat) : Nat :=
  let e := m / exponentBit
  let f := m % exponentBit
  if e = 0 then f else (exponentBit + f) <<< (e - 1)

/-- The magnitude in units. Infinity comes out above every finite double. -/
def magnitude (x : Binary64) : Nat := unitsOfBits x.magnitudeBits

/-- The number in units; both zeros are `0`. -/
def units (x : Binary64) : Int :=
  if x.isNegative then -(x.magnitude : Int) else x.magnitude

/-- How two doubles compare by value; nothing compares to a NaN. -/
def compare? (x y : Binary64) : Option Ordering :=
  if x.isNaN || y.isNaN then none else some (compare x.units y.units)

/-- Equality of value: the zeros are equal and a NaN equals nothing. -/
def sameValue (x y : Binary64) : Bool := x.compare? y == some .eq

/-- The quotient to the nearest whole number, halves to the even one. -/
def roundDiv (num den : Nat) : Nat :=
  let q := num / den
  let r := num % den
  if 2 * r < den then q
  else if den < 2 * r then q + 1
  else if q % 2 = 0 then q else q + 1

/-- The double nearest to `num / den`, halves to the one with even fraction. The step
between neighbours at that size is `2 ^ s` units, so the quotient in steps is rounded
once; a carry into the next exponent is the addition of one to the bits. -/
def ofRatio (negative : Bool) (num den : Nat) : Binary64 :=
  let n := num <<< unitShift
  let s := (n / den).log2 - 52
  let q := roundDiv n (den <<< s)
  ofMagnitudeBits negative (min (s * exponentBit + q) infinityBits)

/-- The double nearest to an integer. -/
def ofInt (i : Int) : Binary64 :=
  ofRatio (i < 0) i.natAbs 1

/-- The double nearest to `digits * 10 ^ exponent`. Numbers certain to overflow or to
vanish are not expanded. -/
def ofDecimal (negative : Bool) (digits : Nat) (exponent : Int) : Binary64 :=
  if digits = 0 then ofMagnitudeBits negative 0
  else
    let places := (Nat.toDigits 10 digits).length
    if exponent + places > 310 then infinity negative
    else if exponent + places < -330 then ofMagnitudeBits negative 0
    else if 0 ≤ exponent then ofRatio negative (digits * Nat.pow 10 exponent.toNat) 1
    else ofRatio negative digits (Nat.pow 10 (-exponent).toNat)

/-- The integer part of a finite double. -/
def truncate (x : Binary64) : Int :=
  let n : Int := (x.magnitude >>> unitShift : Nat)
  if x.isNegative then -n else n

/-- The double as one of the machine's. -/
private def toFloat (x : Binary64) : Float := Float.ofBits x.bits

/-- One of the machine's doubles by its bits. -/
private def ofFloat (x : Float) : Binary64 := ⟨x.toBits⟩

/-- The sum, rounded to the nearest double. -/
def add (x y : Binary64) : Binary64 := ofFloat (x.toFloat + y.toFloat)

/-- The difference, rounded to the nearest double. -/
def sub (x y : Binary64) : Binary64 := ofFloat (x.toFloat - y.toFloat)

/-- The product, rounded to the nearest double. -/
def mul (x y : Binary64) : Binary64 := ofFloat (x.toFloat * y.toFloat)

/-- The quotient, rounded to the nearest double; by zero it is infinite or a NaN. -/
def div (x y : Binary64) : Binary64 := ofFloat (x.toFloat / y.toFloat)

/-- The power as the machine's library computes it, which need not be the nearest double. -/
def pow (x y : Binary64) : Binary64 := ofFloat (Float.pow x.toFloat y.toFloat)

/-- The same magnitude with the other sign. -/
def neg (x : Binary64) : Binary64 := ofMagnitudeBits (!x.isNegative) x.magnitudeBits

end Binary64

end EventScript.Decimal
