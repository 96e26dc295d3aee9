import ChronicleMeta.Json.Basic

/-! Writing of JSON text, on one line or indented. -/

namespace ChronicleMeta.Json

def escapeChar (c : Char) : List Char :=
  if c = '"' then ['\\', '"']
  else if c = '\\' then ['\\', '\\']
  else if c = '\x08' then ['\\', 'b']
  else if c = '\x0c' then ['\\', 'f']
  else if c = '\n' then ['\\', 'n']
  else if c = '\r' then ['\\', 'r']
  else if c = '\t' then ['\\', 't']
  else if c.toNat < 0x20 then
    let ds := Nat.toDigits 16 c.toNat
    ['\\', 'u'] ++ List.replicate (4 - ds.length) '0' ++ ds
  else [c]

def quoted (s : String) : String :=
  "\"" ++ String.ofList (s.toList.flatMap escapeChar) ++ "\""

def newLine (depth : Nat) : String :=
  "\n" ++ String.ofList (List.replicate (2 * depth) ' ')

mutual

/-- The data on one line, without blanks. -/
def compact : Json → String
  | .null | .broken => "null"
  | .bool b => if b then "true" else "false"
  | .number n => String.ofList n.chars
  | .string s => quoted s
  | .array [] => "[]"
  | .array (j :: js) => "[" ++ compact j ++ compactItems js ++ "]"
  | .object [] => "\x7b\x7d"
  | .object ((name, j) :: fs) =>
    "\x7b" ++ quoted name ++ ":" ++ compact j ++ compactFields fs ++ "\x7d"

def compactItems : List Json → String
  | [] => ""
  | j :: js => "," ++ compact j ++ compactItems js

def compactFields : List (String × Json) → String
  | [] => ""
  | (name, j) :: fs => "," ++ quoted name ++ ":" ++ compact j ++ compactFields fs

end

mutual

def pretty (depth : Nat) : Json → String
  | .null | .broken => "null"
  | .bool b => if b then "true" else "false"
  | .number n => String.ofList n.chars
  | .string s => quoted s
  | .array [] => "[]"
  | .array (j :: js) =>
    "[" ++ newLine (depth + 1) ++ pretty (depth + 1) j ++ prettyItems (depth + 1) js
      ++ newLine depth ++ "]"
  | .object [] => "\x7b\x7d"
  | .object ((name, j) :: fs) =>
    "\x7b" ++ newLine (depth + 1) ++ quoted name ++ ": " ++ pretty (depth + 1) j
      ++ prettyFields (depth + 1) fs ++ newLine depth ++ "\x7d"

def prettyItems (depth : Nat) : List Json → String
  | [] => ""
  | j :: js => "," ++ newLine depth ++ pretty depth j ++ prettyItems depth js

def prettyFields (depth : Nat) : List (String × Json) → String
  | [] => ""
  | (name, j) :: fs =>
    "," ++ newLine depth ++ quoted name ++ ": " ++ pretty depth j ++ prettyFields depth fs

end

end ChronicleMeta.Json
