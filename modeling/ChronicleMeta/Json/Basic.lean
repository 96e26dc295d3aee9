import ChronicleMeta.Number.Reading

/-! Structured data in the form of JSON. -/

namespace ChronicleMeta

open Number (Binary64 digitsValue isDigit)

/-- A numeral, as it is written: digits with an optional minus, fraction and exponent. -/
structure Numeral where
  chars : List Char
deriving DecidableEq, Repr

namespace Numeral

def ofNat (n : Nat) : Numeral := ⟨Nat.toDigits 10 n⟩

def ofInt (i : Int) : Numeral :=
  ⟨if i < 0 then '-' :: Nat.toDigits 10 i.natAbs else Nat.toDigits 10 i.natAbs⟩

/-- The digits before the point, without a sign. -/
def whole (n : Numeral) : List Char :=
  (if n.chars.head? = some '-' then n.chars.tail else n.chars).takeWhile isDigit

def isNegative (n : Numeral) : Bool := n.chars.head? = some '-'

/-- The integer, if the numeral has neither fraction nor exponent and fits 64 bits, with a sign if
negative. A minus before zero makes no integer. -/
def integer? (n : Numeral) : Option Int :=
  let value := digitsValue n.whole
  if n.isNegative then
    if n.chars.length = n.whole.length + 1 ∧ 0 < value ∧ value ≤ Number.greatest + 1 then
      some (-value)
    else none
  else if n.chars.length = n.whole.length ∧ value < UInt64.size then some value
  else none

def natural? (bound : Nat) (n : Numeral) : Option Nat :=
  n.integer?.bind fun i => if 0 ≤ i ∧ i < bound then some i.toNat else none

def leading (acc count : Nat) : List Char → Nat × Nat
  | [] => (acc, count)
  | c :: cs =>
    let next := 10 * acc + (Number.digit? c).getD 0
    if next < UInt64.size then leading next (count + 1) cs else (acc, count)

/-- The number divided by a power of ten, in steps of the greatest power of ten that is a number,
which is that of 308. -/
def divideByPower (f : Binary64) (exponent : Nat) : Binary64 :=
  if exponent ≤ 308 then f.div (.powerOfTen exponent)
  else if f.magnitude = 0 then f
  else divideByPower (f.div (.powerOfTen 308)) (exponent - 308)
termination_by exponent

/-- The floating-point number: the leading digits that fit 64 bits are rounded, and then multiplied
with or divided by a rounded power of ten. -/
def toBinary64 (n : Numeral) : Binary64 :=
  let unsigned := if n.isNegative then n.chars.tail else n.chars
  let rest := unsigned.dropWhile isDigit
  let places := match rest with
    | '.' :: rest => rest.takeWhile isDigit
    | _ => []
  let power : Int := match Number.readDecimal? unsigned with
    | some d => d.exponent + places.length
    | none => 0
  let (significand, taken) := leading 0 0 (n.whole ++ places)
  let exponent := power + n.whole.length - taken
  let f := Binary64.ofFraction false significand 1
  let result :=
    if exponent < 0 then divideByPower f exponent.natAbs
    else f.mul (.powerOfTen (min exponent.natAbs 309))
  .ofMagnitude n.isNegative result.magnitude

end Numeral

inductive Json where
  | null
  | bool (b : Bool)
  | number (n : Numeral)
  | string (s : String)
  | array (items : List Json)
  | object (fields : List (String × Json))
  /-- A text that holds half of a surrogate pair, or an object with such a name. It may be passed
  over, but it has no meaning. -/
  | broken

namespace Json

def ofNat (n : Nat) : Json := .number (.ofNat n)

def ofUInt32 (n : UInt32) : Json := ofNat n.toNat

def ofOption {α : Type} (f : α → Json) : Option α → Json
  | some a => f a
  | none => .null

def ofText? : Option String → Json := ofOption .string

def ofTexts (texts : List String) : Json := .array (texts.map .string)

def bool? : Json → Option Bool
  | .bool b => some b
  | _ => none

def string? : Json → Option String
  | .string s => some s
  | _ => none

def array? : Json → Option (List Json)
  | .array items => some items
  | _ => none

def object? : Json → Option (List (String × Json))
  | .object fields => some fields
  | _ => none

def natural? (bound : Nat) : Json → Option Nat
  | .number n => n.natural? bound
  | _ => none

/-- The fields, of which each of the names may occur once at most. -/
def record? (names : List String) (j : Json) : Option (List (String × Json)) :=
  j.object?.bind fun fields =>
    if names.all fun name => (fields.filter (·.1 = name)).length ≤ 1 then some fields else none

def required? {α : Type} (fields : List (String × Json)) (name : String) (read : Json → Option α) :
    Option α :=
  (fields.lookup name).bind read

def defaulted? {α : Type} (fields : List (String × Json)) (name : String) (default : α)
    (read : Json → Option α) : Option α :=
  match fields.lookup name with
  | some j => read j
  | none => some default

def optional? {α : Type} (read : Json → Option α) : Json → Option (Option α)
  | .null => some none
  | j => (read j).map some

/-- A case of an enumeration: its name alone, or its name as the only field, with its content. -/
def case? : Json → Option (String × Json)
  | .string name => some (name, .null)
  | .object [(name, content)] => some (name, content)
  | _ => none

/-- The name of a case without content. -/
def caseName? (j : Json) : Option String :=
  match j.case? with
  | some (name, .null) => some name
  | _ => none

def lastOfEach : List (String × Json) → List (String × Json)
  | [] => []
  | f :: fs => if fs.any (·.1 = f.1) then lastOfEach fs else f :: lastOfEach fs

mutual

def withoutRepetition : Json → Json
  | .array items => .array (withoutRepetitionItems items)
  | .object fields => .object (lastOfEach (withoutRepetitionFields fields))
  | j => j

/-- The items without repeated fields. -/
def withoutRepetitionItems : List Json → List Json
  | [] => []
  | j :: js => withoutRepetition j :: withoutRepetitionItems js

/-- The fields with values without repeated fields. -/
def withoutRepetitionFields : List (String × Json) → List (String × Json)
  | [] => []
  | (name, j) :: fs => (name, withoutRepetition j) :: withoutRepetitionFields fs

end

end Json

end ChronicleMeta
