import ChronicleMeta.Blueprint.Edit
import ChronicleMeta.Catalog.Basic
import ChronicleMeta.Database.Properties
import ChronicleMeta.Problem

/-! The definitions that entries of a catalog stand for. A base schema supplies what they leave out. -/

namespace ChronicleMeta

def Problem.ofError (e : Error) : Problem := .failure (.error e)

instance : MonadLift (Except Error) (Except Problem) := ⟨fun r => r.mapError .ofError⟩

def ValueTypeEntry.build (entry : ValueTypeEntry) (database : DatabaseId) : Except Error ValueType := do
  let kind ← ValueKind.ofName entry.kind
  let t : ValueType := {
    surrogate := .pending database .valueType
    name := entry.name
    kind
    nullable := entry.nullable }
  if entry.values.isEmpty then return t
  t.restrict (← entry.values.mapM fun text => return (← Value.parse kind text, none))

/-- The attribute, with a property of the database. A removal has nothing else. -/
def AttributeEntry.build (db : Database) (entry : AttributeEntry) : Except Error Attribute := do
  let a : Attribute := { number := entry.number }
  if entry.erasing then return ← a.setErasing true
  let a ← match entry.property with
    | some name => a.setProperty (some (← db.property name))
    | none => pure a
  match entry.value with
  | some text => a.parseValue text
  | none => return a

/-- The series with an attribute of the entry, whose number must not be taken. -/
def SeriesEntry.addAttribute (db : Database) (entry : SeriesEntry) (s : Series) (a : AttributeEntry) :
    Except Problem Series := do
  if a.erasing then return (← (s.eraseAttribute a.number).commit).2
  let (added, s) ← (s.addAttribute (← a.build db)).commit
  if added then return s else throw (.listedTwice entry.number a.number)

def setPresent {α : Type} (set : Series → α → Edited Series Unit) (s : Series) :
    Option α → Except Error Series
  | some a => (set s a).commit.map (·.2)
  | none => .ok s

/-- The series. A removal has nothing else. -/
def SeriesEntry.build (db : Database) (entry : SeriesEntry) : Except Problem Series := do
  let s : Series := { number := entry.number }
  if entry.erasing then return (← (s.setErasing true).commit).2
  let s ← setPresent Series.setName s entry.name
  let s ← setPresent Series.setValueKind s (← entry.kind.mapM fun name => ValueKind.ofName name)
  let s ← setPresent Series.setTimeDomain s entry.timeDomain
  let s ← setPresent Series.setDescription s (entry.description.map some)
  entry.attributes.foldlM (entry.addAttribute db) s

/-- The schema in a session, with the attributes and then the series of the entry. -/
def SchemaEntry.addDefinitions (db : Database) (entry : SchemaEntry) (b : Blueprint) :
    Except Problem Blueprint := do
  let b ← entry.attributes.foldlM
    (fun (b : Blueprint) a => do return (← (b.addAttribute (← a.build db)).commit).2) b
  entry.series.foldlM
    (fun (b : Blueprint) s => do return (← (b.addSeries (← s.build db)).commit).2) b

end ChronicleMeta
