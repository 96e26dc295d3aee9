import ChronicleMeta.Number.Integer
import ChronicleMeta.Number.Shortest

/-! Floating-point numbers read from decimal text. -/

namespace ChronicleMeta.Number

inductive FloatFault where
  | empty
  | invalid
deriving DecidableEq, Repr

def FloatFault.message : FloatFault → String
  | .empty => "cannot parse float from empty string"
  | .invalid => "invalid float literal"

def digitsValue (ds : List Char) : Nat :=
  ds.foldl (fun n c => 10 * n + (digit? c).getD 0) 0

def isDigit (c : Char) : Bool := (digit? c).isSome

/-- The exponent a text stands for: digits after an optional sign. -/
def readExponent? (cs : List Char) : Option Int :=
  let read (ds : List Char) : Option Nat :=
    if ds ≠ [] ∧ ds.all isDigit then some (digitsValue ds) else none
  match cs with
  | '-' :: ds => (read ds).map fun n => -(n : Int)
  | '+' :: ds => (read ds).map fun n => (n : Int)
  | ds => (read ds).map fun n => (n : Int)

/-- The decimal an unsigned numeral stands for: digits, with a point before, among or after them,
and an exponent after an `e`. -/
def readDecimal? (cs : List Char) : Option Decimal :=
  let whole := cs.takeWhile isDigit
  let rest := cs.dropWhile isDigit
  let (places, rest) := match rest with
    | '.' :: rest => (rest.takeWhile isDigit, rest.dropWhile isDigit)
    | rest => ([], rest)
  if whole = [] ∧ places = [] then none
  else
    let value (e : Int) : Decimal := ⟨digitsValue (whole ++ places), e - places.length⟩
    match rest with
    | [] => some (value 0)
    | 'e' :: rest | 'E' :: rest => (readExponent? rest).map value
    | _ => none

namespace Binary64

/-- The number nearest to the decimal. A decimal of more than 310 places before the point is
infinite and one of more than 400 zeros after it is zero, so the powers of ten stay small. -/
def ofDecimal (negative : Bool) (d : Decimal) : Binary64 :=
  let lead := d.exponent + ((Nat.toDigits 10 d.digits).length : Int)
  if d.digits = 0 ∨ lead < -400 then ofMagnitude negative 0
  else if 310 < lead then ofMagnitude negative infiniteMagnitude
  else ofFraction negative d.numerator d.denominator

/-- The quiet not-a-number with an empty payload. -/
def nan (negative : Bool) : Binary64 := ofMagnitude negative (infiniteMagnitude + exponentBit / 2)

/-- The number a text stands for: a numeral, or an infinity or not-a-number in letters of either
case, after an optional sign. -/
def read (cs : List Char) : Except FloatFault Binary64 :=
  let unsigned (negative : Bool) (cs : List Char) : Except FloatFault Binary64 :=
    match readDecimal? cs with
    | some d => .ok (ofDecimal negative d)
    | none =>
      let word := String.ofList (cs.map Char.toLower)
      if word = "inf" ∨ word = "infinity" then .ok (ofMagnitude negative infiniteMagnitude)
      else if word = "nan" then .ok (nan negative)
      else .error .invalid
  match cs with
  | [] => .error .empty
  | '-' :: cs => unsigned true cs
  | '+' :: cs => unsigned false cs
  | cs => unsigned false cs

end Binary64

end ChronicleMeta.Number
