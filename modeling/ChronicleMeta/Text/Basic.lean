/-!
White space as the Unicode property `White_Space` counts it, and trimming by it; lines of plain text,
left-aligned columns and underlined titles.
-/

namespace ChronicleMeta.Text

def isBlank (c : Char) : Bool :=
  let n := c.toNat
  (0x9 ≤ n && n ≤ 0xd) || n == 0x20 || n == 0x85 || n == 0xa0 || n == 0x1680
    || (0x2000 ≤ n && n ≤ 0x200a) || n == 0x2028 || n == 0x2029 || n == 0x202f
    || n == 0x205f || n == 0x3000

def trimStart (cs : List Char) : List Char := cs.dropWhile isBlank

def trimEnd (cs : List Char) : List Char := (cs.reverse.dropWhile isBlank).reverse

def trim (cs : List Char) : List Char := trimEnd (trimStart cs)

/-- The text followed by as many blanks as bring it to `width` characters; a longer text is kept whole. -/
def padRight (width : Nat) (s : String) : String :=
  s ++ String.ofList (List.replicate (width - s.length) ' ')

def rule (c : Char) (length : Nat) : String :=
  String.ofList (List.replicate length c)

def heading (title : String) : List String :=
  [title, rule '=' title.utf8ByteSize]

def unlines (lines : List String) : String :=
  String.join (lines.map (· ++ "\n"))

/-- The first line of a text, without a carriage return at its end. -/
def firstLine (s : String) : String :=
  let cs := s.toList.takeWhile (· ≠ '\n')
  String.ofList (if cs.getLast? = some '\r' then cs.dropLast else cs)

end ChronicleMeta.Text
