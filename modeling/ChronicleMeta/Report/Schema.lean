import ChronicleMeta.Report.Basic
import ChronicleMeta.Schema

/-! Reports on schemas and chronicles. -/

namespace ChronicleMeta

structure AttributeSummary where
  number : UInt32
  property : Option String
  value : Option String

namespace AttributeSummary

def ofAttribute (a : Attribute) : AttributeSummary where
  number := a.number
  property := a.property.map (·.name)
  value := a.value.map (·.toText)

def row (number property value : String) : String :=
  s!"{Text.padRight 8 number} {Text.padRight 30 property} {Text.padRight 30 value}"

def line (a : AttributeSummary) : String :=
  row (toString a.number) (a.property.getD "?") (a.value.getD "-")

def toJson (a : AttributeSummary) : Json :=
  .object [
    ("number", .ofUInt32 a.number),
    ("property", .ofText? a.property),
    ("value", .ofText? a.value)]

end AttributeSummary

structure SeriesSummary where
  number : UInt32
  name : Option String
  kind : Option String
  timeDomain : Option String
  description : Option String
  attributes : List AttributeSummary

namespace SeriesSummary

def ofSeries (s : Series) : SeriesSummary where
  number := s.number
  name := s.name?
  kind := s.valueKind?.map (·.name)
  timeDomain := s.timeDomain?
  description := s.description
  attributes := s.customAttributes.map .ofAttribute

def lines (s : SeriesSummary) : List String :=
  let known (text : Option String) : String := text.getD "?"
  ["", s!"Series #{s.number} {known s.name} ({known s.kind}, {known s.timeDomain})"]
    ++ (s.description.map ("  " ++ ·)).toList
    ++ s.attributes.map ("  " ++ ·.line)

def toJson (s : SeriesSummary) : Json :=
  .object [
    ("number", .ofUInt32 s.number),
    ("name", .ofText? s.name),
    ("kind", .ofText? s.kind),
    ("time_domain", .ofText? s.timeDomain),
    ("description", .ofText? s.description),
    ("attributes", .array (s.attributes.map (·.toJson)))]

end SeriesSummary

structure SchemaSummary where
  name : String
  base : Option String
  /-- What is missing, in words. -/
  incompleteness : Option String
  dependencies : List String
  attributes : List AttributeSummary
  series : List SeriesSummary

namespace SchemaSummary

def completeness (s : SchemaSummary) : String :=
  match s.incompleteness with
  | some reason => s!"Complete: no ({reason})"
  | none => "Complete: yes"

def lines (s : SchemaSummary) : List String :=
  Text.heading s!"Schema: {s.name}"
    ++ ["Base: " ++ s.base.getD "-", "Resolved from: " ++ " <- ".intercalate s.dependencies,
      s.completeness, "", AttributeSummary.row "#" "PROPERTY" "VALUE", Text.rule '-' 70]
    ++ s.attributes.map (·.line)
    ++ s.series.flatMap (·.lines)

def toJson (s : SchemaSummary) : Json :=
  .object [
    ("name", .string s.name),
    ("base", .ofText? s.base),
    ("incompleteness", .ofText? s.incompleteness),
    ("dependencies", .ofTexts s.dependencies),
    ("attributes", .array (s.attributes.map (·.toJson))),
    ("series", .array (s.series.map (·.toJson)))]

instance : Report SchemaSummary := ⟨lines, toJson⟩

end SchemaSummary

structure ChronicleSummary where
  fullName : String
  name : String
  description : Option String
  topLevel : Bool
  schema : SchemaSummary

instance : Report ChronicleSummary where
  lines c :=
    Text.heading s!"Chronicle: {c.fullName}"
      ++ [s!"Name: {c.name}", s!"Top level: {c.topLevel}"]
      ++ (c.description.map ("Description: " ++ ·)).toList
      ++ "" :: c.schema.lines
  toJson c :=
    .object [
      ("full_name", .string c.fullName),
      ("name", .string c.name),
      ("description", .ofText? c.description),
      ("top_level", .bool c.topLevel),
      ("schema", c.schema.toJson)]

end ChronicleMeta
