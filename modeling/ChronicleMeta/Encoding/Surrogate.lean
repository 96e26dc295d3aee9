import ChronicleMeta.Json.Basic
import ChronicleMeta.Surrogate

/-!
Surrogates as data: database, kind and state. A database is read from any of the forms that a UUID is
written in.
-/

namespace ChronicleMeta

namespace DatabaseId

/-- The hexadecimal digits of a UUID without its hyphens, which have to stand after 8, 12, 16 and
20 digits. -/
def withoutHyphens? (cs : List Char) : Option (List Char) :=
  let at? (i : Nat) : Bool := cs[i]? = some '-'
  if cs.length = 36 ∧ at? 8 ∧ at? 13 ∧ at? 18 ∧ at? 23 then
    some (cs.take 8 ++ (cs.drop 9).take 4 ++ (cs.drop 14).take 4 ++ (cs.drop 19).take 4 ++ cs.drop 24)
  else none

/-- The database a UUID in hexadecimal stands for: bare digits, groups with hyphens between, and
these in braces or, in letters of either case, after `urn:uuid:`. -/
def read? (cs : List Char) : Option DatabaseId :=
  let digits? : Option (List Char) :=
    if cs.length = 32 then some cs
    else if cs.head? = some '\x7b' ∧ cs.getLast? = some '\x7d' then
      withoutHyphens? cs.tail.dropLast
    else if (cs.take 9).map Char.toLower = "urn:uuid:".toList then withoutHyphens? (cs.drop 9)
    else withoutHyphens? cs
  do
    let ds ← (← digits?).mapM hexDigit?
    return ⟨.ofNat 128 (ds.foldl (fun n d => 16 * n + d) 0)⟩

end DatabaseId

namespace Surrogate

def toJson (s : Surrogate) : Json :=
  let state : Json := match s.id? with
    | none => .string "Pending"
    | some id => .object [("Committed", .ofNat id.toNat)]
  .object [("database", .string s.database.text), ("kind", .string s.kind.text), ("state", state)]

def ofState? (j : Json) : Option (Option UInt64) :=
  match j.case? with
  | some ("Pending", .null) => some none
  | some ("Committed", id) => (id.natural? UInt64.size).map fun n => some (.ofNat n)
  | _ => none

def ofJson? (j : Json) : Option Surrogate := do
  let fields ← j.record? ["database", "kind", "state"]
  let database ← Json.required? fields "database" fun j => j.string?.bind fun s => DatabaseId.read? s.toList
  let kind ← Json.required? fields "kind" (·.caseName? |>.bind ObjectKind.ofText?)
  let id? ← Json.required? fields "state" ofState?
  return { database, kind, id? }

end Surrogate

end ChronicleMeta
