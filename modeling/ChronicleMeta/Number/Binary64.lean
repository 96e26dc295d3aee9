/-!
Binary floating-point numbers of 64 bits, by their bits. All arithmetic is on exact fractions of
natural numbers, rounded once.
-/

namespace ChronicleMeta.Number

/-- The quotient of `num` by `den` rounded to the nearest whole number, a tie to the even one. -/
def divRoundEven (num den : Nat) : Nat :=
  let q := num / den
  let r := num % den
  if 2 * r < den then q
  else if den < 2 * r then q + 1
  else if q % 2 = 0 then q else q + 1

/-- A floating-point number: a sign bit, eleven bits of exponent and 52 of fraction. -/
structure Binary64 where
  bits : UInt64
deriving DecidableEq, Repr, Inhabited

namespace Binary64

def signBit : Nat := 0x8000000000000000

/-- The lowest bit of the exponent; the fraction lies below it. -/
def exponentBit : Nat := 0x10000000000000

def isNegative (x : Binary64) : Bool := signBit ≤ x.bits.toNat

def magnitude (x : Binary64) : Nat := x.bits.toNat % signBit

/-- The magnitude of the infinities; that of a number is below it. -/
def infiniteMagnitude : Nat := 0x7ff * exponentBit

def isInfinite (x : Binary64) : Bool := x.magnitude = infiniteMagnitude

def isNaN (x : Binary64) : Bool := infiniteMagnitude < x.magnitude

def ofMagnitude (negative : Bool) (magnitude : Nat) : Binary64 :=
  ⟨.ofNat (magnitude % signBit + if negative then signBit else 0)⟩

/-- The significand of a finite number: its absolute value is `significand * 2 ^ exponent`. -/
def significand (x : Binary64) : Nat :=
  if x.magnitude < exponentBit then x.magnitude else x.magnitude % exponentBit + exponentBit

def exponent (x : Binary64) : Int :=
  max (x.magnitude / exponentBit : Nat) 1 - 1075

/-- The absolute value of a finite number as a fraction: the numerator. -/
def numerator (x : Binary64) : Nat := x.significand <<< x.exponent.toNat

/-- The absolute value of a finite number as a fraction: the denominator. -/
def denominator (x : Binary64) : Nat := 1 <<< (-x.exponent).toNat

/-- The exponent at which the fraction has a significand of 53 bits, or the least exponent there is. -/
def exponentFor (num den : Nat) : Int :=
  let e : Int := (num.log2 : Int) - (den.log2 : Int) - 52
  let e := if num <<< (-e).toNat < den <<< (52 + e.toNat) then e - 1 else e
  max e (-1074)

/-- The magnitude nearest to a positive fraction, a tie to the even significand. A significand that
rounds up to 54 bits carries into the exponent, and past the last exponent lies infinity. -/
def roundMagnitude (num den : Nat) : Nat :=
  let e := exponentFor num den
  let m := divRoundEven (num <<< (-e).toNat) (den <<< e.toNat)
  min ((e + 1074).toNat * exponentBit + m) infiniteMagnitude

def ofFraction (negative : Bool) (num den : Nat) : Binary64 :=
  ofMagnitude negative (if num = 0 then 0 else roundMagnitude num den)

/-- The product of two finite numbers, rounded. -/
def mul (x y : Binary64) : Binary64 :=
  ofFraction (x.isNegative != y.isNegative) (x.numerator * y.numerator)
    (x.denominator * y.denominator)

/-- The quotient of two finite numbers, rounded. The second number is not zero. -/
def div (x y : Binary64) : Binary64 :=
  ofFraction (x.isNegative != y.isNegative) (x.numerator * y.denominator)
    (x.denominator * y.numerator)

def powerOfTen (exponent : Nat) : Binary64 := ofFraction false (Nat.pow 10 exponent) 1

end Binary64

end ChronicleMeta.Number
