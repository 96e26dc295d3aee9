import ChronicleMeta.Error

/-! Why a command fails, with the context in which it does. -/

namespace ChronicleMeta

/-- Why a command fails. -/
inductive Problem where
  | failure (f : Failure)
  | unknownValueType (property valueType : String)
  | listedTwice (series number : UInt32)
  /-- The bases of schemas of a catalog do not exist, or lead back to these schemas. -/
  | basesMissing (schemas : List String)
  | unreadable (what : String)
  | malformed (what : String)
  /-- Something fails while the object is made. -/
  | within (object : String) (p : Problem)

namespace Problem

/-- The error of the library that the problem comes from. -/
def error? : Problem → Option Error
  | .failure (.error e) => some e
  | .within _ p => p.error?
  | _ => none

/-- The contexts of the problem from the outermost one inward, and last its cause. A breach of an
invariant is not told. -/
def chain : Problem → List String
  | .failure (.error e) => [e.message]
  | .failure (.fault _) => []
  | .unknownValueType property valueType => [s!"property {property}: unknown value type {valueType}"]
  | .listedTwice series number => [s!"series #{series}: attribute #{number} listed twice"]
  | .basesMissing schemas =>
    [s!"schemas with a missing or cyclic base: " ++ ", ".intercalate schemas]
  | .unreadable what => [s!"failed to read {what}"]
  | .malformed what => [s!"failed to parse {what}"]
  | .within object p => object :: p.chain

def message (p : Problem) : String := ": ".intercalate p.chain

/-- The problem on lines of its own: the outermost context first, then its causes. A breach of an
invariant leaves the line empty. -/
def report (p : Problem) : List String :=
  match p.chain with
  | [] => [""]
  | [only] => [s!"Error: {only}"]
  | [outer, cause] => [s!"Error: {outer}", "", "Caused by:", "    " ++ cause]
  | outer :: causes =>
    [s!"Error: {outer}", "", "Caused by:"] ++ causes.mapIdx fun i cause => s!"    {i}: {cause}"

/-- What a program that fails with the problem exits with: 101 after a breach of an invariant. -/
def exitCode : Problem → UInt32
  | .failure (.fault _) => 101
  | .within _ p => p.exitCode
  | _ => 1

/-- What names the kind of the problem: that of the error it comes from, or `other`. -/
def key (p : Problem) : String := (p.error?.map (·.key)).getD "other"

end Problem

instance : MonadLift (Except Failure) (Except Problem) := ⟨fun r => r.mapError .failure⟩

end ChronicleMeta
