import ChronicleMeta.Identity

/-! Texts in the form of TOML: blanks and comments, and strings in quotation marks. -/

namespace ChronicleMeta.Toml

def skipBlank (cs : List Char) : List Char := cs.dropWhile fun c => c = ' ' ∨ c = '\t'

def isControl (c : Char) : Bool := (c.toNat < 0x20 && c != '\t') || c.toNat == 0x7f

def readNewline : List Char → Option (List Char)
  | '\n' :: rest => some rest
  | '\r' :: '\n' :: rest => some rest
  | _ => none

def readLineEnd (cs : List Char) : Option (List Char) :=
  let rest := match skipBlank cs with
    | '#' :: rest => rest.dropWhile (!isControl ·)
    | rest => rest
  match rest with
  | [] => some []
  | rest => readNewline rest

/-- The text after blanks, comments and line ends, at most `room` lines of them. -/
def skipLines (room : Nat) (cs : List Char) : List Char :=
  let cs := skipBlank cs
  match room, cs with
  | 0, _ | _, [] => cs
  | room + 1, cs =>
    match readLineEnd cs with
    | some rest => skipLines room rest
    | none => cs

def escaped? : Char → Option Char
  | '"' => some '"'
  | '\\' => some '\\'
  | 'b' => some '\x08'
  | 'f' => some '\x0c'
  | 'n' => some '\n'
  | 'r' => some '\r'
  | 't' => some '\t'
  | _ => none

def scalar? (ds : List Char) : Option Char := do
  let n := (← ds.mapM DatabaseId.hexDigit?).foldl (fun n d => 16 * n + d) 0
  if n.isValidChar then some (Char.ofNat n) else none

/-- The character of the escape after a backslash, and what follows. -/
def readEscape : List Char → Option (Char × List Char)
  | 'u' :: a :: b :: c :: d :: rest => (scalar? [a, b, c, d]).map (·, rest)
  | 'U' :: a :: b :: c :: d :: e :: f :: g :: h :: rest =>
    (scalar? [a, b, c, d, e, f, g, h]).map (·, rest)
  | c :: rest => (escaped? c).map (·, rest)
  | [] => none

/-- The text up to the closing mark, with escapes if the marks are double, and what follows. Each
step takes at least one character, so `room` for all of them is enough. -/
def readLine (mark : Char) : (room : Nat) → List Char → Option (List Char × List Char)
  | 0, _ | _, [] => none
  | room + 1, c :: rest => do
    if c = mark then return ([], rest)
    if isControl c then none
    let (c, rest) ← if c = '\\' ∧ mark = '"' then readEscape rest else some (c, rest)
    let (cs, rest) ← readLine mark room rest
    return (c :: cs, rest)

def skipBlankLines : List Char → List Char
  | ' ' :: rest | '\t' :: rest | '\n' :: rest | '\r' :: '\n' :: rest => skipBlankLines rest
  | rest => rest

/-- What follows a backslash at the end of a line: the text after that and further line ends. -/
def continued? (cs : List Char) : Option (List Char) :=
  (readNewline (skipBlank cs)).map skipBlankLines

/-- The text of several lines up to three closing marks, and what follows. Up to two more marks
before the closing ones belong to the text. -/
def readLines (mark : Char) : (room : Nat) → List Char → Option (List Char × List Char)
  | 0, _ | _, [] => none
  | room + 1, c :: rest => do
    if c = mark then
      let marks := (c :: rest).takeWhile (· = mark)
      if 3 ≤ marks.length then
        let held := min (marks.length - 3) 2
        return (marks.take held, (c :: rest).drop (held + 3))
    let (added, rest) ←
      if c = '\\' ∧ mark = '"' then
        match continued? rest with
        | some rest => some ([], rest)
        | none => (readEscape rest).map fun (c, rest) => ([c], rest)
      else match readNewline (c :: rest) with
        | some rest => some (['\n'], rest)
        | none => if isControl c then none else some ([c], rest)
    let (cs, rest) ← readLines mark room rest
    return (added ++ cs, rest)

def readQuoted (mark : Char) (cs : List Char) : Option (String × List Char) :=
  (readLine mark (cs.length + 1) cs).map fun (cs, rest) => (String.ofList cs, rest)

/-- The string after its opening mark, of several lines if two more marks follow, and what follows.
A line end right after the opening marks does not count. -/
def readString (mark : Char) (cs : List Char) : Option (String × List Char) :=
  if cs.take 2 = [mark, mark] then
    let body := cs.drop 2
    let body := (readNewline body).getD body
    (readLines mark (body.length + 1) body).map fun (cs, rest) => (String.ofList cs, rest)
  else readQuoted mark cs

end ChronicleMeta.Toml
