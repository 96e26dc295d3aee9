import ChronicleMeta.Number.Binary64

/-!
Decimal text of floating-point numbers: the fewest digits that read back as the number, and a fixed
number of places.
-/

namespace ChronicleMeta.Number

/-- The positive decimal fraction `digits * 10 ^ exponent`. -/
structure Decimal where
  digits : Nat
  exponent : Int
deriving DecidableEq, Repr

namespace Decimal

def numerator (d : Decimal) : Nat := d.digits * Nat.pow 10 d.exponent.toNat

def denominator (d : Decimal) : Nat := Nat.pow 10 (-d.exponent).toNat

/-- The same value without zeros at the end of its digits, at most `limit` of them. -/
def trimZeros (limit : Nat) (d : Decimal) : Decimal :=
  match limit with
  | 0 => d
  | limit + 1 =>
    if d.digits % 10 = 0 then trimZeros limit ⟨d.digits / 10, d.exponent + 1⟩ else d

/-- The value in positional notation, without an exponent. -/
def positional (d : Decimal) : List Char :=
  let ds := Nat.toDigits 10 d.digits
  if 0 ≤ d.exponent then ds ++ List.replicate d.exponent.toNat '0'
  else
    let places := (-d.exponent).toNat
    let ds := List.replicate (places + 1 - ds.length) '0' ++ ds
    ds.take (ds.length - places) ++ '.' :: ds.drop (ds.length - places)

def scientific (d : Decimal) : List Char :=
  let ds := Nat.toDigits 10 d.digits
  let e := d.exponent + (ds.length - 1 : Nat)
  let power := (if e < 0 then ['-'] else []) ++ Nat.toDigits 10 e.natAbs
  match ds with
  | [] => []
  | [c] => c :: 'e' :: power
  | c :: cs => c :: '.' :: cs ++ 'e' :: power

end Decimal

namespace Binary64

/-- Whether the decimal reads back as the number, which is finite and not zero: it lies within half
a unit of the last bit, the ends included when the significand is even. Below a power of two the
unit is half as large. -/
def readsBack (x : Binary64) (d : Decimal) : Bool :=
  let m := x.significand
  let below := if m = exponentBit ∧ x.exponent ≠ -1074 then 1 else 2
  let scale := d.denominator <<< x.exponent.toNat
  let v := (4 * d.numerator) <<< (-x.exponent).toNat
  let lo := (4 * m - below) * scale
  let hi := (4 * m + 2) * scale
  if m % 2 = 0 then lo ≤ v && v ≤ hi else lo < v && v < hi

def leadingPower (x : Binary64) : Int :=
  let num := x.numerator
  let den := x.denominator
  if den ≤ num then ((Nat.toDigits 10 (num / den)).length - 1 : Nat)
  else
    let k := (Nat.toDigits 10 (den / num)).length
    if den ≤ num * Nat.pow 10 (k - 1) then -((k - 1 : Nat) : Int) else -(k : Int)

/-- The nearer of the two decimals of `count` digits next to the number that reads back as it, the
larger one if they are equally near. -/
def nearest? (x : Binary64) (count : Nat) : Option Decimal :=
  let e := x.leadingPower + 1 - (count : Int)
  let num := x.numerator * Nat.pow 10 (-e).toNat
  let den := x.denominator * Nat.pow 10 e.toNat
  let lower : Decimal := ⟨num / den, e⟩
  let upper : Decimal := ⟨num / den + 1, e⟩
  match x.readsBack lower, x.readsBack upper with
  | true, true => some (if 2 * (num % den) < den then lower else upper)
  | true, false => some lower
  | false, true => some upper
  | false, false => none

/-- The decimal of the fewest digits that reads back as the number, which is finite and not zero.
Seventeen digits are always enough. -/
def shortest (x : Binary64) : Decimal :=
  let d := ((List.range 17).findSome? fun n => x.nearest? (n + 1)).getD ⟨0, 0⟩
  d.trimZeros 17

def text (x : Binary64) : List Char :=
  if x.isNaN then "NaN".toList
  else
    let sign := if x.isNegative then ['-'] else []
    if x.isInfinite then sign ++ "inf".toList
    else if x.magnitude = 0 then sign ++ ['0']
    else sign ++ x.shortest.positional

/-- A number that is neither negative nor infinite, always with a point or an exponent: positional
from `0.00001` to below `10 ^ 16`, scientific elsewhere. -/
def pointedText (x : Binary64) : List Char :=
  if x.magnitude = 0 then "0.0".toList
  else
    let d := x.shortest
    let lead := d.exponent + ((Nat.toDigits 10 d.digits).length : Int)
    if -5 < lead ∧ lead ≤ 16 then
      if 0 ≤ d.exponent then d.positional ++ ['.', '0'] else d.positional
    else d.scientific

/-- A number that is neither negative nor infinite, with two places, a half to the even neighbour. -/
def twoPlaces (x : Binary64) : List Char :=
  Decimal.positional ⟨divRoundEven (100 * x.numerator) x.denominator, -2⟩

def hex (x : Binary64) : List Char :=
  let ds := Nat.toDigits 16 x.bits.toNat
  List.replicate (16 - ds.length) '0' ++ ds

end Binary64

end ChronicleMeta.Number
