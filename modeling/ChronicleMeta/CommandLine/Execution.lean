import ChronicleMeta.Catalog.Loading
import ChronicleMeta.Catalog.Reading
import ChronicleMeta.CommandLine.Arguments
import ChronicleMeta.CommandLine.Folder
import ChronicleMeta.Encoding.Config
import ChronicleMeta.Json.Reader
import ChronicleMeta.Toml.Reader

/-!
Execution of a command on a database that holds a catalog. The files have been read before, so that
the output depends on nothing but the arguments and the files.
-/

namespace ChronicleMeta.CommandLine

def Options.configFile (o : Options) : String := o.config.getD "chronos.toml"

def readConfig (name : String) : File → Except Problem Config
  | .absent => .ok {}
  | .unreadable => .error (.unreadable name)
  | .text s =>
    match (Toml.read? s).bind Config.ofJson? with
    | some c => .ok c
    | none => .error (.malformed name)

def readCatalog (name : String) : File → Except Problem Catalog
  | .absent | .unreadable => .error (.unreadable s!"catalog {name}")
  | .text s =>
    match (Json.read? s).bind Catalog.ofJson? with
    | some c => .ok c
    | none => .error (.malformed s!"catalog {name}")

def Options.override (o : Options) (c : Config) : Config :=
  { c with
    logging := { level := o.logLevel.getD c.logging.level }
    cache := { capacity := o.cacheCapacity.getD c.cache.capacity } }

def Options.settings (o : Options) (config : File) : Except Problem Config := do
  let c := o.override (← readConfig o.configFile config)
  c.validate
  return c

def Action.on (catalog : Catalog) : Action → Command
  | .command c => c
  | .catalogStats => .cacheStats (catalog.chronicles.map (·.name))

/-- The output of the arguments. The catalog is loaded into the new database `id`. -/
def Arguments.execute (a : Arguments) (config : File) (catalog : Option (String × File))
    (id : DatabaseId) : Except Problem String := do
  let c ← a.options.settings config
  let db ← Database.ofStore { database := id } c
  let catalog ← match catalog with
    | some (name, file) => readCatalog name file
    | none => pure {}
  let ((), db) ← (catalog.load db).commit
  let format := if a.options.json then ReportFormat.json else .text
  (((a.action.on catalog).run format db).mapError Problem.failure).result

end ChronicleMeta.CommandLine
