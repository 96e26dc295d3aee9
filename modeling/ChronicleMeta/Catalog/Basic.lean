import ChronicleMeta.Json.Basic

/-! Catalogs: lists of the value types, properties, schemas and chronicles of a database. -/

namespace ChronicleMeta

structure ValueTypeEntry where
  name : String
  kind : String
  nullable : Bool
  /-- The allowed values in text form; there is no restriction if it is empty. -/
  values : List String

structure PropertyEntry where
  name : String
  valueType : String
  indexed : Bool

structure AttributeEntry where
  number : UInt32
  /-- The name of the property, unless it is inherited. -/
  property : Option String
  value : Option String
  erasing : Bool

structure SeriesEntry where
  number : UInt32
  /-- The name, unless it is inherited. -/
  name : Option String
  /-- The name of the kind of values, unless it is inherited. -/
  kind : Option String
  /-- The time domain, unless it is inherited. -/
  timeDomain : Option String
  /-- The description, unless it is inherited. -/
  description : Option String
  erasing : Bool
  attributes : List AttributeEntry

structure SchemaEntry where
  name : String
  base : Option String
  attributes : List AttributeEntry
  series : List SeriesEntry

structure ChronicleEntry where
  name : String
  schema : String
  description : Option String

structure Catalog where
  valueTypes : List ValueTypeEntry := []
  properties : List PropertyEntry := []
  /-- The schemas, a base not necessarily before those that extend it. -/
  schemas : List SchemaEntry := []
  /-- The chronicles, a parent before its children. -/
  chronicles : List ChronicleEntry := []

end ChronicleMeta
