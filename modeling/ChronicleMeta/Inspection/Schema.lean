import ChronicleMeta.Blueprint.Basic
import ChronicleMeta.Inspection.Definition
import ChronicleMeta.Schema

/-! What schemas look like from outside, as data. -/

namespace ChronicleMeta

def Blueprint.inspectSession (b : Blueprint) : Json :=
  let d := b.definitions
  .object [
    ("editing", .bool b.editing),
    ("base", .ofText? b.base),
    ("surrogate", .string b.surrogate.text),
    ("changes", .object [
      ("base", .bool b.changes.base),
      ("structure", .bool b.changes.structural),
      ("values", .bool b.changes.values),
      ("any", .bool b.changes.any)]),
    ("attributes", .array (d.attributes.numbers.map .ofUInt32)),
    ("series", .array (d.series.numbers.map .ofUInt32))]

def Blueprint.inspect (b : Blueprint) : Except Fault Json := do
  return .object [
    ("name", .string b.name),
    ("label", .string b.label),
    ("state", b.inspectSession),
    ("complete", .bool (← b.definitions.isComplete)),
    ("properties", .ofTexts (b.properties.map (·.name))),
    ("attributes", ← b.definitions.attributes.inspectAttributes),
    ("series", ← b.definitions.series.inspectSeries)]

def Schema.inspect (s : Schema) : Except Fault Json := do
  return .object [
    ("surrogate", .string s.surrogate.text),
    ("name", .string s.name),
    ("label", .string s.label),
    ("complete", .bool (← s.definitions.isComplete)),
    ("incompleteness", .ofText? ((← s.definitions.incompleteness?).map (·.message))),
    ("dependencies", .ofTexts (s.dependencies.map (·.text))),
    ("properties", .ofTexts (s.properties.map (·.name))),
    ("attributes", ← s.definitions.attributes.inspectAttributes),
    ("series", ← s.definitions.series.inspectSeries)]

end ChronicleMeta
