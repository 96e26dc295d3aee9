import ChronicleMeta.Toml.Scalar
import ChronicleMeta.Toml.Table
import ChronicleMeta.Toml.Text

/-!
Reading of TOML text: sections of keys with values. Dates and lists of tables are not read.
-/

namespace ChronicleMeta.Toml

/-- Whether the character may stand in a key without quotation marks. -/
def isBare (c : Char) : Bool := c.isAlphanum || c == '_' || c == '-'

def readName : List Char → Option (String × List Char)
  | '"' :: rest => readQuoted '"' rest
  | '\'' :: rest => readQuoted '\'' rest
  | cs =>
    let name := cs.takeWhile isBare
    if name = [] then none else some (String.ofList name, cs.dropWhile isBare)

/-- The path at the start, names with points between, and what follows. Each name takes at least one
character, so `room` for all of them is enough. -/
def readPath : (room : Nat) → List Char → Option (List String × List Char)
  | 0, _ => none
  | room + 1, cs => do
    let (name, rest) ← readName (skipBlank cs)
    match skipBlank rest with
    | '.' :: rest => do
      let (path, rest) ← readPath room rest
      return (name :: path, rest)
    | rest => return ([name], rest)

/-- Lists and tables in braces lie in one another, and paths have names, at most this often. -/
def depthLimit : Nat := 79

/-- The path at the start and what follows, unless it has too many names. -/
def readKey (cs : List Char) : Option (List String × List Char) :=
  (readPath (cs.length + 1) cs).filter fun (path, _) => path.length ≤ depthLimit

mutual

/-- The value at the start, and what follows. It holds at most `depth` lists and tables in one
another. -/
def readValue (depth : Nat) : (room : Nat) → List Char → Option (Json × List Char)
  | 0, _ => none
  | room + 1, cs =>
    match depth, cs with
    | _, '"' :: rest => (readString '"' rest).map fun (s, rest) => (.string s, rest)
    | _, '\'' :: rest => (readString '\'' rest).map fun (s, rest) => (.string s, rest)
    | 0, '[' :: _ | 0, '\x7b' :: _ => none
    | depth + 1, '[' :: rest =>
      (readItems depth room rest).map fun (items, rest) => (.array items, rest)
    | depth + 1, '\x7b' :: rest =>
      match skipBlank rest with
      | '\x7d' :: rest => some (.object [], rest)
      | rest => do
        let (pairs, rest) ← readPairs depth room rest
        let fields ← Fields.assignAll pairs []
        return (.object (fieldsToJson fields), rest)
    | _, cs =>
      let word := cs.takeWhile fun c => isBare c || c == '+' || c == '.'
      (scalar word).map (·, cs.drop word.length)

def readItems (depth : Nat) : (room : Nat) → List Char → Option (List Json × List Char)
  | 0, _ => none
  | room + 1, cs =>
    match skipLines cs.length cs with
    | ']' :: rest => some ([], rest)
    | cs => do
      let (item, rest) ← readValue depth room cs
      match skipLines rest.length rest with
      | ',' :: rest => do
        let (items, rest) ← readItems depth room rest
        return (item :: items, rest)
      | ']' :: rest => return ([item], rest)
      | _ => none

def readPair (depth : Nat) : (room : Nat) → List Char → Option ((List String × Json) × List Char)
  | 0, _ => none
  | room + 1, cs => do
    let (path, rest) ← readKey cs
    match rest with
    | '=' :: rest => do
      let (j, rest) ← readValue depth room (skipBlank rest)
      return ((path, j), rest)
    | _ => none

def readPairs (depth : Nat) : (room : Nat) → List Char →
    Option (List (List String × Json) × List Char)
  | 0, _ => none
  | room + 1, cs => do
    let (pair, rest) ← readPair depth room cs
    match skipBlank rest with
    | ',' :: rest => do
      let (pairs, rest) ← readPairs depth room rest
      return (pair :: pairs, rest)
    | '\x7d' :: rest => return ([pair], rest)
    | _ => none

end

/-- The keys and values of a section, and what follows: a header or nothing. -/
def readSection : (room : Nat) → List Char → Option (List (List String × Json) × List Char)
  | 0, _ => none
  | room + 1, cs =>
    match skipLines cs.length cs with
    | [] => some ([], [])
    | '[' :: rest => some ([], '[' :: rest)
    | cs => do
      let (pair, rest) ← readPair depthLimit (2 * cs.length + 1) cs
      let (pairs, rest) ← readSection room (← readLineEnd rest)
      return (pair :: pairs, rest)

/-- The sections that follow the keys without a header, each with the path in its header. -/
def readSections : (room : Nat) → List Char →
    Option (List (List String × List (List String × Json)))
  | 0, _ => none
  | _ + 1, [] => some []
  | room + 1, cs =>
    match cs with
    | '[' :: rest => do
      let (path, rest) ← readKey rest
      match rest with
      | ']' :: rest => do
        let (pairs, rest) ← readSection (rest.length + 1) (← readLineEnd rest)
        return (path, pairs) :: (← readSections room rest)
      | _ => none
    | _ => none

def read? (s : String) : Option Json := do
  let cs := match s.toList with
    | '\ufeff' :: cs => cs
    | cs => cs
  let (pairs, rest) ← readSection (cs.length + 1) cs
  let sections ← readSections (rest.length + 1) rest
  let root ← Fields.assignAll pairs []
  let fields ← sections.foldlM
    (fun fields (path, pairs) => Fields.define (Fields.assignAll pairs) path fields) root
  return .object (fieldsToJson fields)

end ChronicleMeta.Toml
