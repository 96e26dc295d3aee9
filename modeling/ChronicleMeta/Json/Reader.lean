import ChronicleMeta.Identity
import ChronicleMeta.Json.Basic

/-! Reading of JSON text. -/

namespace ChronicleMeta.Json

open Number (isDigit)

def skipBlank (cs : List Char) : List Char :=
  cs.dropWhile fun c => c = ' ' ∨ c = '\n' ∨ c = '\t' ∨ c = '\r'

def readHex4 : List Char → Option (Nat × List Char)
  | a :: b :: c :: d :: rest => do
    let ds ← [a, b, c, d].mapM DatabaseId.hexDigit?
    return (ds.foldl (fun n x => 16 * n + x) 0, rest)
  | _ => none

def escaped? : Char → Option Char
  | '"' => some '"'
  | '\\' => some '\\'
  | '/' => some '/'
  | 'b' => some '\x08'
  | 'f' => some '\x0c'
  | 'n' => some '\n'
  | 'r' => some '\r'
  | 't' => some '\t'
  | _ => none

/-- Part of a text: a character, or an escape in UTF-16. -/
inductive Unit16 where
  | char (c : Char)
  | unit (n : Nat)

/-- The parts of a text up to its closing quotation mark, and what follows. Each step takes at least
one character, so `room` for all of them is enough. -/
def readUnits : (room : Nat) → List Char → Option (List Unit16 × List Char)
  | 0, _ => none
  | _ + 1, [] => none
  | _ + 1, '"' :: rest => some ([], rest)
  | room + 1, '\\' :: 'u' :: rest => do
    let (n, rest) ← readHex4 rest
    let (units, rest) ← readUnits room rest
    return (.unit n :: units, rest)
  | room + 1, '\\' :: c :: rest => do
    let c ← escaped? c
    let (units, rest) ← readUnits room rest
    return (.char c :: units, rest)
  | room + 1, c :: rest => do
    if c.toNat < 0x20 ∨ c = '\\' then none
    let (units, rest) ← readUnits room rest
    return (.char c :: units, rest)

/-- The characters of the parts, unless one of them is half of a surrogate pair. -/
def joinUnits : List Unit16 → Option (List Char)
  | [] => some []
  | .char c :: units => (joinUnits units).map (c :: ·)
  | .unit n :: .unit m :: units =>
    if 0xd800 ≤ n ∧ n < 0xdc00 then
      if 0xdc00 ≤ m ∧ m < 0xe000 then
        (joinUnits units).map (Char.ofNat (0x10000 + (n - 0xd800) * 0x400 + (m - 0xdc00)) :: ·)
      else none
    else if 0xdc00 ≤ n ∧ n < 0xe000 then none
    else (joinUnits (.unit m :: units)).map (Char.ofNat n :: ·)
  | .unit n :: units =>
    if 0xd800 ≤ n ∧ n < 0xe000 then none else (joinUnits units).map (Char.ofNat n :: ·)

/-- The text after an opening quotation mark, absent if it holds half of a surrogate pair, and what
follows. -/
def readString (cs : List Char) : Option (Option String × List Char) :=
  (readUnits (cs.length + 1) cs).map fun (units, rest) => ((joinUnits units).map String.ofList, rest)

/-- The digits at the start, at least one, and what follows. -/
def readDigits1 (cs : List Char) : Option (List Char × List Char) :=
  let ds := cs.takeWhile isDigit
  if ds = [] then none else some (ds, cs.dropWhile isDigit)

def readNumeral (cs : List Char) : Option (Numeral × List Char) := do
  let (sign, cs) := match cs with
    | '-' :: cs => (['-'], cs)
    | cs => ([], cs)
  let (whole, cs) ← readDigits1 cs
  if whole.head? = some '0' ∧ whole ≠ ['0'] then none
  let (fraction, cs) ← match cs with
    | '.' :: cs => do
      let (ds, cs) ← readDigits1 cs
      pure ('.' :: ds, cs)
    | cs => pure ([], cs)
  let (power, cs) ← match cs with
    | e :: cs => do
      if e = 'e' ∨ e = 'E' then
        let (sign, cs) := match cs with
          | '+' :: cs => (['+'], cs)
          | '-' :: cs => (['-'], cs)
          | cs => ([], cs)
        let (ds, cs) ← readDigits1 cs
        pure (e :: sign ++ ds, cs)
      else pure ([], e :: cs)
    | [] => pure ([], [])
  return (⟨sign ++ whole ++ fraction ++ power⟩, cs)

def readWord (word : String) (cs : List Char) : Option (List Char) :=
  word.toList.isPrefixOf? cs

mutual

/-- The value at the start, after any blanks, and what follows. Each step takes at least one
character, so `room` for all of them is enough. -/
def readValue : (room : Nat) → List Char → Option (Json × List Char)
  | 0, _ => none
  | room + 1, cs =>
    match skipBlank cs with
    | [] => none
    | '"' :: rest =>
      (readString rest).map fun (s, rest) => (match s with | some s => .string s | none => .broken, rest)
    | '[' :: rest =>
      match skipBlank rest with
      | ']' :: rest => some (.array [], rest)
      | rest => (readItems room rest).map fun (items, rest) => (.array items, rest)
    | '\x7b' :: rest =>
      match skipBlank rest with
      | '\x7d' :: rest => some (.object [], rest)
      | rest => (readFields room rest).map fun (fields, rest) =>
        (match fields.mapM fun (name, j) => name.map (·, j) with
          | some fields => .object fields
          | none => .broken, rest)
    | 't' :: rest => (readWord "rue" rest).map (.bool true, ·)
    | 'f' :: rest => (readWord "alse" rest).map (.bool false, ·)
    | 'n' :: rest => (readWord "ull" rest).map (.null, ·)
    | rest => (readNumeral rest).map fun (n, rest) => (.number n, rest)

/-- The items of a list, at least one, up to its closing bracket, and what follows. -/
def readItems : (room : Nat) → List Char → Option (List Json × List Char)
  | 0, _ => none
  | room + 1, cs => do
    let (item, rest) ← readValue room cs
    match skipBlank rest with
    | ',' :: rest => do
      let (items, rest) ← readItems room rest
      return (item :: items, rest)
    | ']' :: rest => return ([item], rest)
    | _ => none

/-- The fields of an object, at least one, up to its closing brace, and what follows. -/
def readFields : (room : Nat) → List Char → Option (List (Option String × Json) × List Char)
  | 0, _ => none
  | room + 1, cs => do
    let (name, rest) ← match skipBlank cs with
      | '"' :: rest => readString rest
      | _ => none
    let rest ← match skipBlank rest with
      | ':' :: rest => some rest
      | _ => none
    let (value, rest) ← readValue room rest
    match skipBlank rest with
    | ',' :: rest => do
      let (fields, rest) ← readFields room rest
      return ((name, value) :: fields, rest)
    | '\x7d' :: rest => return ([(name, value)], rest)
    | _ => none

end

def read? (s : String) : Option Json := do
  let cs := s.toList
  let (j, rest) ← readValue (cs.length + 1) cs
  if skipBlank rest = [] then return j else none

end ChronicleMeta.Json
