import ChronicleMeta.Json.Basic
import ChronicleMeta.Value

/-! Values as data: their kind and the value itself. -/

namespace ChronicleMeta.Value

def toJson (v : Value) : Json :=
  let content : Json := match v with
    | .text s => .string s
    | .integer i => .number (.ofInt i.toInt)
    | .float x => .string (String.ofList x.text)
    | .boolean b => .bool b
    | .date d => .string (String.ofList d.text)
  .object [("kind", .string v.kind.name), ("value", content)]

def ofContent? : ValueKind → Json → Option Value
  | .text, j => j.string?.map .text
  | .integer, .number n =>
    n.integer?.bind fun i => if i ≤ Number.greatest then some (.integer (.ofInt i)) else none
  | .float, .number n => some (.float n.toBinary64)
  | .boolean, j => j.bool?.map .boolean
  | .date, j => j.string?.bind fun s => ((Calendar.Date.read true s.toList).map Value.date).toOption
  | _, _ => none

def ofJson? (j : Json) : Option Value := do
  let fields ← j.record? ["kind", "value"]
  let kind ← Json.required? fields "kind" (·.caseName? |>.bind ValueKind.ofName?)
  Json.required? fields "value" (ofContent? kind)

end ChronicleMeta.Value
