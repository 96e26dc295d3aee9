/-! Signed 64-bit integers in decimal. -/

namespace ChronicleMeta.Number

def digit? (c : Char) : Option Nat :=
  if '0' ≤ c ∧ c ≤ '9' then some (c.toNat - '0'.toNat) else none

inductive IntegerFault where
  | empty
  /-- A character is no digit, or there is a sign and nothing else. -/
  | invalidDigit
  | tooLarge
  | tooSmall
deriving DecidableEq, Repr

def IntegerFault.message : IntegerFault → String
  | .empty => "cannot parse integer from empty string"
  | .invalidDigit => "invalid digit found in string"
  | .tooLarge => "number too large to fit in target type"
  | .tooSmall => "number too small to fit in target type"

/-- The number whose leading digits have the value `acc` and whose other digits follow, when it is
at most `limit`. The digits are judged one by one, so the first that is no digit or takes the number
past the limit decides the reason. -/
def readDigits (limit : Nat) (past : IntegerFault) (acc : Nat) : List Char → Except IntegerFault Nat
  | [] => .ok acc
  | c :: cs =>
    match digit? c with
    | none => .error .invalidDigit
    | some d =>
      if 10 * acc + d ≤ limit then readDigits limit past (10 * acc + d) cs else .error past

/-- The greatest signed integer of 64 bits. -/
def greatest : Nat := 0x7fffffffffffffff

/-- The integer a text stands for: decimal digits after an optional sign. -/
def readInt64 : List Char → Except IntegerFault Int64
  | [] => .error .empty
  | ['+'] | ['-'] => .error .invalidDigit
  | '+' :: cs => (readDigits greatest .tooLarge 0 cs).map fun n => Int64.ofInt n
  | '-' :: cs => (readDigits (greatest + 1) .tooSmall 0 cs).map fun n => Int64.ofInt (-n)
  | cs => (readDigits greatest .tooLarge 0 cs).map fun n => Int64.ofInt n

def writeInt64 (i : Int64) : List Char :=
  if i.toInt < 0 then '-' :: Nat.toDigits 10 i.toInt.natAbs else Nat.toDigits 10 i.toInt.natAbs

end ChronicleMeta.Number
