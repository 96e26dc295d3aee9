import ChronicleMeta.Error
import ChronicleMeta.Json.Basic
import ChronicleMeta.Property

/-! What values, their types, properties and errors look like from outside, as data. -/

namespace ChronicleMeta

def Number.Binary64.inspect (x : Number.Binary64) : Json := .string (String.ofList x.hex)

/-- The kind and the text of the value; of a floating-point number also its bits. -/
def Value.inspect (v : Value) : Json :=
  let bits := match v with
    | .float x => [("bits", x.inspect)]
    | _ => []
  .object ([("kind", .string v.kind.name), ("text", .string v.toText)] ++ bits)

def Surrogate.inspect (s : Surrogate) : Json :=
  .object [
    ("text", .string s.text),
    ("database", .string s.database.text),
    ("builtin", .bool s.database.isBuiltin),
    ("kind", .string s.kind.text),
    ("id", .ofOption (fun id => .ofNat id.toNat) s.id?),
    ("in_construction", .bool s.isPending)]

def ValueType.inspect (t : ValueType) : Json :=
  .object [
    ("surrogate", .string t.surrogate.text),
    ("name", .string t.name),
    ("kind", .string t.kind.name),
    ("restricted", .bool t.isRestricted),
    ("accepts_absent", .bool (t.isCompatible none)),
    ("allowed", .ofTexts t.allowedTexts)]

def Property.inspect (p : Property) : Json :=
  .object [
    ("surrogate", .string p.surrogate.text),
    ("name", .string p.name),
    ("indexed", .bool p.indexed),
    ("value_type", .string p.valueType.name)]

/-- The key and the message, and of what sort the error is. -/
def Error.inspect (e : Error) : Json :=
  .object [
    ("key", .string e.key),
    ("message", .string e.message),
    ("not_found", .bool e.isNotFound),
    ("structural", .bool e.isStructural)]

end ChronicleMeta
