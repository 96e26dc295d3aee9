import ChronicleMeta.Json.Basic

/-! Truth values and numbers in the form of TOML. -/

namespace ChronicleMeta.Toml

open Number (isDigit)

/-- The digits without the single underscores that may stand between them. -/
def digits? (valid : Char → Bool) : List Char → Option (List Char)
  | [] => none
  | [c] => if valid c then some [c] else none
  | c :: '_' :: rest => if valid c then (digits? valid rest).map (c :: ·) else none
  | c :: rest => if valid c then (digits? valid rest).map (c :: ·) else none

/-- The decimal digits of a whole number, without a zero before others. -/
def whole? (cs : List Char) : Option (List Char) := do
  let ds ← digits? isDigit cs
  if ds.head? = some '0' ∧ ds ≠ ['0'] then none else some ds

def digitBelow? (radix : Nat) (c : Char) : Option Nat :=
  (Number.digit? c <|> if 'a' ≤ c.toLower ∧ c.toLower ≤ 'f' then some (c.toLower.toNat - 87) else none)
    |>.filter (· < radix)

def ofRadix? (radix : Nat) (cs : List Char) : Option Int := do
  let ds ← digits? (fun c => (digitBelow? radix c).isSome) cs
  return ds.foldl (fun n c => radix * n + (digitBelow? radix c).getD 0) 0

def splitSign : List Char → Option Char × List Char
  | '-' :: rest => (some '-', rest)
  | '+' :: rest => (some '+', rest)
  | rest => (none, rest)

/-- The integer that the word stands for; it has to fit 64 bits with a sign. -/
def integer? (cs : List Char) : Option Json := do
  let n ← match cs with
    | '0' :: 'x' :: ds => ofRadix? 16 ds
    | '0' :: 'o' :: ds => ofRadix? 8 ds
    | '0' :: 'b' :: ds => ofRadix? 2 ds
    | cs => do
      let (sign, rest) := splitSign cs
      let n : Int := Number.digitsValue (← whole? rest)
      some (if sign = some '-' then -n else n)
  if Int64.minValue.toInt ≤ n ∧ n ≤ Int64.maxValue.toInt then return .number (.ofInt n) else none

def exponent? : List Char → Option (List Char)
  | [] => none
  | e :: rest => do
    if e ≠ 'e' ∧ e ≠ 'E' then none
    let (sign, rest) := splitSign rest
    return e :: sign.toList ++ (← digits? isDigit rest)

def fraction? : List Char → Option (List Char)
  | '.' :: rest => do
    let places := rest.takeWhile fun c => isDigit c || c == '_'
    let power ← match rest.drop places.length with
      | [] => some []
      | rest => exponent? rest
    return '.' :: (← digits? isDigit places) ++ power
  | cs => exponent? cs

/-- The floating-point number that the word stands for. An infinity and not-a-number are no data;
a numeral too large for a finite number is refused. -/
def float? (cs : List Char) : Option Json := do
  let (sign, rest) := splitSign cs
  if rest = "inf".toList ∨ rest = "nan".toList then return .broken
  let whole := rest.takeWhile fun c => isDigit c || c == '_'
  let n : Numeral :=
    ⟨(sign.filter (· = '-')).toList ++ (← whole? whole) ++ (← fraction? (rest.drop whole.length))⟩
  if n.toBinary64.isInfinite then none else return .number n

def scalar (cs : List Char) : Option Json :=
  if cs = "true".toList then some (.bool true)
  else if cs = "false".toList then some (.bool false)
  else integer? cs <|> float? cs

end ChronicleMeta.Toml
