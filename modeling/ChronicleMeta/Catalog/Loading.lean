import ChronicleMeta.Catalog.Definition
import ChronicleMeta.Database.Chronicles
import ChronicleMeta.Database.Schemas

/-!
Loading of catalogs. Every object is created through the database, by the same checks as any other.
A problem ends the loading, and what was loaded before it stays.
-/

namespace ChronicleMeta

/-- What loading leaves: the database, also after a problem. -/
abbrev Loaded : Type := Outcome Problem Database Unit

namespace Loaded

/-- An outcome of the library, of which only the database counts. -/
def ofOutcome {α : Type} (o : Outcome Failure Database α) : Loaded :=
  (o.mapError .failure).map fun _ => ()

/-- Loads one entry after another. -/
def each {α : Type} (load : α → Database → Loaded) : List α → Database → Loaded
  | [], db => .ok db ()
  | x :: xs, db => (load x db).andThen fun () => each load xs

end Loaded

def ValueTypeEntry.load (entry : ValueTypeEntry) (db : Database) : Loaded :=
  .ofOutcome <| db.whenOk (Failure.ofError (entry.build db.store.database)) fun t =>
    db.onStore (·.createValueType t)

/-- The stored or built-in value type of the name. -/
def Database.valueType? (db : Database) (name : String) : Option ValueType :=
  (db.store.valueTypes.get? name).or (Builtin.valueType? name)

def PropertyEntry.load (entry : PropertyEntry) (db : Database) : Loaded :=
  match db.valueType? entry.valueType with
  | none => .fail db (.unknownValueType entry.name entry.valueType)
  | some valueType =>
    .ofOutcome <| db.createProperty {
      surrogate := .pending db.store.database .property
      name := entry.name
      valueType
      indexed := entry.indexed }

namespace SchemaEntry

def fill (entry : SchemaEntry) (b : Blueprint) (db : Database) : Loaded :=
  match entry.addDefinitions db b with
  | .error p => .fail db p
  | .ok b => .ofOutcome (db.updateSchema b)

/-- Creates a schema. The base and definitions cannot change in one session, so a schema with a base
is saved without definitions first, and filled in a second session. -/
def load (entry : SchemaEntry) (db : Database) : Loaded :=
  let b := db.newSchema entry.name
  match entry.base with
  | none => entry.fill b db
  | some base =>
    let based := db.whenOk (Failure.ofError (b.setBase (some base))) db.updateSchema
    (Loaded.ofOutcome based).andThen fun () db =>
      if entry.attributes.isEmpty && entry.series.isEmpty then .ok db ()
      else match db.editSchema entry.name with
        | .error e => .fail db (.ofError e)
        | .ok b => entry.fill b db

/-- Whether the base, if there is one, is stored. -/
def isReady (db : Database) (entry : SchemaEntry) : Bool :=
  entry.base.all fun base => (db.store.schema? base).isSome

def waiting (db : Database) (entries : List SchemaEntry) : List SchemaEntry :=
  entries.filter (!·.isReady db)

end SchemaEntry

def Loaded.within (object : String) (o : Loaded) : Loaded := o.mapError (.within object)

/-- Creates the schemas in rounds, those with a stored base in the next one, until none is left. -/
def loadSchemas (entries : List SchemaEntry) (db : Database) : Loaded :=
  let waiting := SchemaEntry.waiting db entries
  if entries.isEmpty then .ok db ()
  else if waiting.length < entries.length then
    let load (entry : SchemaEntry) (db : Database) : Loaded :=
      (entry.load db).within s!"schema {entry.name}"
    (Loaded.each load (entries.filter (·.isReady db)) db).andThen fun () => loadSchemas waiting
  else .fail db (.basesMissing (waiting.map (·.name)))
termination_by entries.length

def ChronicleEntry.load (entry : ChronicleEntry) (db : Database) : Loaded :=
  (Loaded.ofOutcome (db.createChronicle entry.name entry.description entry.schema)).within
    s!"chronicle {entry.name}"

/-- Creates the objects of a catalog: the value types, the properties, the schemas and the
chronicles. -/
def Catalog.load (catalog : Catalog) (db : Database) : Loaded :=
  (((Loaded.each ValueTypeEntry.load catalog.valueTypes db).andThen fun () =>
    Loaded.each PropertyEntry.load catalog.properties).andThen fun () =>
    loadSchemas catalog.schemas).andThen fun () =>
    Loaded.each ChronicleEntry.load catalog.chronicles

end ChronicleMeta
