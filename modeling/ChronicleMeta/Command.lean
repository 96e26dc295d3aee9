import ChronicleMeta.Database.Chronicles
import ChronicleMeta.Database.Schemas
import ChronicleMeta.Report.Cache
import ChronicleMeta.Report.Property
import ChronicleMeta.Report.Schema

/-! Commands that report on a database. -/

namespace ChronicleMeta

inductive Command where
  | listSchemas (pattern : String)
  /-- Shows a schema merged with its bases, complete or not. -/
  | showSchema (name : String)
  /-- Resolves a schema, which has to be complete. -/
  | checkSchema (name : String)
  | dependencies (name : String)
  | showChronicle (fullName : String)
  /-- Looks chronicles up and shows how the cache shares their schemas. -/
  | cacheStats (fullNames : List String)
  /-- Lists the properties that match a pattern, the built-in ones included. -/
  | listProperties (pattern : String)

namespace Database

def schemaName (db : Database) (s : Surrogate) : String :=
  match db.store.loadSchema s with
  | some b => b.name
  | none => s.text

def summarize (db : Database) (schema : Schema) (base : Option String) :
    Except Failure SchemaSummary := do
  return {
    name := schema.name
    base
    incompleteness := (← schema.definitions.incompleteness?).map (·.message)
    dependencies := schema.dependencies.map db.schemaName
    attributes := schema.definitions.attributes.components.map .ofAttribute
    series := schema.definitions.series.components.map .ofSeries }

def baseOf (db : Database) (schema : String) : Option String :=
  (db.store.schema? schema).bind (·.base)

def listSchemas (db : Database) (pattern : String) : NameList :=
  { title := "Schemas", names := db.store.schemasMatching pattern }

def showSchema (db : Database) (name : String) : Except Failure SchemaSummary := do
  let b ← db.loadSchema name
  let schema ← b.merge db.store.source ({} : ResolutionConfig).maxDepth
  db.summarize schema b.base

def checkSchema (db : Database) (name : String) : Except Failure SchemaSummary := do
  db.summarize (← db.schema name) (db.baseOf name)

def listDependencies (db : Database) (name : String) : Except Failure NameList := do
  return { title := s!"Dependencies of {name}", names := (← db.showSchema name).dependencies }

def listProperties (db : Database) (pattern : String) : PropertyList :=
  let builtin := Builtin.properties.filter fun p => Text.matchesPattern pattern p.name
  let found := (builtin ++ db.store.propertiesMatching pattern).map (·.summary)
  { properties := found.mergeSort fun p q => p.name ≤ q.name }

def showChronicle (db : Database) (fullName : String) : Outcome Failure Database ChronicleSummary :=
  (db.chronicle fullName).andThen fun c db =>
    let schema := c.schema.schema
    db.whenOk (db.summarize schema (db.baseOf schema.name)) fun schema =>
      .ok db {
        fullName := c.fullName
        name := c.name
        description := c.description
        topLevel := c.isTopLevel
        schema }

/-- The surrogates of the schemas of the chronicles, in the order in which they are first met. The
chronicles are looked up by way of the cache. -/
def sharedSchemas : List String → List Surrogate → Database → Outcome Failure Database (List Surrogate)
  | [], met, db => .ok db met
  | name :: names, met, db => (db.chronicle name).andThen fun c =>
    let s := c.schema.schema.surrogate
    sharedSchemas names (if met.any (·.agrees s) then met else met ++ [s])

def summarizeCache (db : Database) (schemas : List Surrogate) : CacheSummary where
  capacity := db.cache.capacity
  size := db.cache.size
  stats := db.cache.stats
  schemas := schemas.filterMap fun s => (db.cache.schemaUses? s).map fun uses => (db.schemaName s, uses)

def cacheStats (db : Database) (fullNames : List String) : Outcome Failure Database CacheSummary :=
  (sharedSchemas fullNames [] db).andThen fun schemas db => .ok db (db.summarizeCache schemas)

end Database

def Command.run (format : ReportFormat) (db : Database) : Command → Outcome Failure Database String
  | .listSchemas pattern => .ok db (Report.write format (db.listSchemas pattern))
  | .showSchema name => db.whenOk (db.showSchema name) fun r => .ok db (Report.write format r)
  | .checkSchema name => db.whenOk (db.checkSchema name) fun r => .ok db (Report.write format r)
  | .dependencies name => db.whenOk (db.listDependencies name) fun r => .ok db (Report.write format r)
  | .showChronicle fullName => (db.showChronicle fullName).map (Report.write format)
  | .cacheStats fullNames => (db.cacheStats fullNames).map (Report.write format)
  | .listProperties pattern => .ok db (Report.write format (db.listProperties pattern))

end ChronicleMeta
