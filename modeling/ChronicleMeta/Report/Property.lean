import ChronicleMeta.Property
import ChronicleMeta.Report.Basic

/-! Reports on properties. -/

namespace ChronicleMeta

structure PropertySummary where
  name : String
  valueType : String
  indexed : Bool

def Property.summary (p : Property) : PropertySummary :=
  { name := p.name, valueType := p.valueType.name, indexed := p.indexed }

structure PropertyList where
  properties : List PropertySummary

namespace PropertyList

def row (name valueType indexed : String) : String :=
  s!"{Text.padRight 30 name} {Text.padRight 20 valueType} {Text.padRight 8 indexed}"

def table (l : PropertyList) : List String :=
  row "NAME" "VALUE TYPE" "INDEXED" :: Text.rule '-' 60
    :: l.properties.map fun p => row p.name p.valueType (toString p.indexed)

instance : Report PropertyList where
  lines l := Text.heading "Properties" ++
    if l.properties.isEmpty then ["No properties found"] else l.table
  toJson l := .array (l.properties.map fun p =>
    .object [
      ("name", .string p.name),
      ("value_type", .string p.valueType),
      ("indexed", .bool p.indexed)])

end PropertyList

end ChronicleMeta
