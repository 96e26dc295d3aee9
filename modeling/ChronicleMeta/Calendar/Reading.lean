import ChronicleMeta.Calendar.Date
import ChronicleMeta.Number.Reading
import ChronicleMeta.Text.Basic

/-! Dates read from text. -/

namespace ChronicleMeta.Calendar

open Number (isDigit digitsValue)
open Text (trimStart)

inductive DateFault where
  /-- A number is outside its range, or there is no such day. -/
  | outOfRange
  | invalid
  | tooShort
  /-- The text goes on after the date. -/
  | trailing
deriving DecidableEq, Repr

def DateFault.message : DateFault → String
  | .outOfRange => "input is out of range"
  | .invalid => "input contains invalid characters"
  | .tooShort => "premature end of input"
  | .trailing => "trailing input"

namespace Date

/-- The number made of the leading digits, at most `width` of them where a width is given, and what
follows. The number has to fit 64 bits with a sign. -/
def readNumber (width : Option Nat) (cs : List Char) : Except DateFault (Nat × List Char) :=
  let run := cs.takeWhile isDigit
  let ds := match width with
    | some w => run.take w
    | none => run
  if cs = [] then .error .tooShort
  else if ds = [] then .error .invalid
  else if digitsValue ds ≤ Number.greatest then .ok (digitsValue ds, cs.drop ds.length)
  else .error .outOfRange

/-- The year at the start, after any blanks: up to four digits, or any number of them after a
sign. It has to fit 32 bits with a sign. -/
def readYear (cs : List Char) : Except DateFault (Int × List Char) := do
  let (year, rest) ← match trimStart cs with
    | '-' :: cs => (readNumber none cs).map fun (n, rest) => (-(n : Int), rest)
    | '+' :: cs => (readNumber none cs).map fun (n, rest) => ((n : Int), rest)
    | cs => (readNumber (some 4) cs).map fun (n, rest) => ((n : Int), rest)
  if Int32.minValue.toInt ≤ year ∧ year ≤ Int32.maxValue.toInt then return (year, rest) else throw .outOfRange

/-- The number of up to two digits at the start, after any blanks, from 1 to `limit`. -/
def readPart (limit : Nat) (cs : List Char) : Except DateFault (Nat × List Char) := do
  let (n, rest) ← readNumber (some 2) (trimStart cs)
  if 1 ≤ n ∧ n ≤ limit then return (n, rest) else throw .outOfRange

def readHyphen : List Char → Except DateFault (List Char)
  | [] => .error .tooShort
  | '-' :: rest => .ok rest
  | _ :: _ => .error .invalid

/-- The date a text stands for: year, month and day with hyphens between, blanks allowed before
each number. With `loose` set they may also stand before the hyphens and at the end. -/
def read (loose : Bool) (cs : List Char) : Except DateFault Date := do
  let gap (cs : List Char) : List Char := if loose then trimStart cs else cs
  let (year, cs) ← readYear cs
  let (month, cs) ← readPart 12 (← readHyphen (gap cs))
  let (day, cs) ← readPart 31 (← readHyphen (gap cs))
  if gap cs ≠ [] then throw .trailing
  match ofParts? year month day with
  | some date => return date
  | none => throw .outOfRange

end Date

end ChronicleMeta.Calendar
