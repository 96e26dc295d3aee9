import ChronicleMeta.Blueprint.Resolution
import ChronicleMeta.Outcome
import ChronicleMeta.Text.Wildcard

/-!
The store of one database: blueprints, value types, properties and chronicles by name. An operation
that fails changes nothing.
-/

namespace ChronicleMeta

structure StoredChronicle where
  surrogate : Surrogate
  fullName : String
  description : Option String := none
  /-- The parent, unless the chronicle is at the top. -/
  parent : Option Surrogate := none
  schema : Surrogate

structure Store where
  database : DatabaseId
  /-- The last id that was assigned. -/
  lastId : UInt64 := 0
  /-- The schemas by name, none of them in a session. -/
  schemas : SortedMap String Blueprint := ∅
  valueTypes : SortedMap String ValueType := ∅
  properties : SortedMap String Property := ∅
  chronicles : SortedMap String StoredChronicle := ∅

namespace Store

/-- The id for the next object, after which it is the last assigned one. -/
def nextId (s : Store) : UInt64 := s.lastId + 1

/-- Refuses an object of another kind or another database. -/
def checkOwned (s : Store) (x : Surrogate) (kind : ObjectKind) : Except Error Unit :=
  if x.kind = kind ∧ x.database = s.database then .ok ()
  else .error (.ofArgument (.notOwned x.text kind s.database))

/-- Refuses an object that is stored already, and one that the store cannot hold. -/
def checkNew (s : Store) (x : Surrogate) (kind : ObjectKind) : Except Error Unit := do
  if !x.isPending then throw (.ofArgument (.alreadyPersisted kind x.text))
  s.checkOwned x kind

def checkFree {α : Type} (m : SortedMap String α) (kind : ObjectKind) (name : String) :
    Except Error Unit :=
  if m.contains name then .error (.ofArgument (.alreadyExists kind name)) else .ok ()

def schema? (s : Store) (name : String) : Option Blueprint := s.schemas.get? name

def source (s : Store) : Source := fun name => .ok (s.schema? name)

def loadSchema (s : Store) (x : Surrogate) : Option Blueprint :=
  s.schemas.findValue? (·.surrogate.agrees x)

def schemasMatching (s : Store) (pattern : String) : List String :=
  s.schemas.keys.filter (Text.matchesPattern pattern)

def propertiesMatching (s : Store) (pattern : String) : List Property :=
  (s.properties.toList.filter fun e => Text.matchesPattern pattern e.1).map (·.2)

def chroniclesUsing (s : Store) (schema : Surrogate) : List String :=
  (s.chronicles.values.filter (·.schema.agrees schema)).map (·.fullName)

/-- Stores a new schema, with its session closed, and gives its id. -/
def createSchema (s : Store) (b : Blueprint) : Edited Store UInt64 :=
  .ofExcept s do
    s.checkNew b.surrogate .schema
    checkFree s.schemas .schema b.name
    let stored ← b.upgrade s.nextId
    return (s.nextId,
      { s with lastId := s.nextId, schemas := s.schemas.insert b.name stored.close })

/-- Replaces the stored schema with the surrogate, with its session closed. -/
def updateSchema (s : Store) (b : Blueprint) : Edited Store Unit :=
  .ofExcept s do
    match s.loadSchema b.surrogate with
    | none => throw (.schemaNotFound b.surrogate.text)
    | some old =>
      if old.name ≠ b.name then checkFree s.schemas .schema b.name
      return ((), { s with schemas := (s.schemas.erase old.name).insert b.name b.close })

def deleteSchema (s : Store) (x : Surrogate) : Edited Store Unit :=
  .ofExcept s do
    match s.loadSchema x with
    | none => throw (.schemaNotFound x.text)
    | some b => return ((), { s with schemas := s.schemas.erase b.name })

def createValueType (s : Store) (t : ValueType) : Edited Store UInt64 :=
  .ofExcept s do
    s.checkNew t.surrogate .valueType
    checkFree s.valueTypes .valueType t.name
    let stored ← t.upgrade s.nextId
    return (s.nextId, { s with lastId := s.nextId, valueTypes := s.valueTypes.insert t.name stored })

/-- Stores a new value type and gives it as stored. -/
def insertValueType (s : Store) (t : ValueType) : Edited Store ValueType :=
  (s.createValueType t).andThen fun id s =>
    match t.upgrade id with
    | .ok stored => .ok s stored
    | .error e => .fail s e

def createProperty (s : Store) (p : Property) : Edited Store UInt64 :=
  .ofExcept s do
    s.checkNew p.surrogate .property
    checkFree s.properties .property p.name
    let stored ← p.upgrade s.nextId
    return (s.nextId, { s with lastId := s.nextId, properties := s.properties.insert p.name stored })

/-- Stores a new property and gives it as stored. -/
def insertProperty (s : Store) (p : Property) : Edited Store Property :=
  (s.createProperty p).andThen fun _ s =>
    match s.properties.get? p.name with
    | some stored => .ok s stored
    | none => .fail s (.internal s!"property {p.name} vanished")

def findProperty? (s : Store) (x : Surrogate) : Option Property :=
  s.properties.findValue? (·.surrogate.agrees x)

/-- The change of properties that puts `p` in the place of the one with its surrogate. -/
def replaceBy (p : Property) : PropertyMap Unit := fun q =>
  pure (if q.surrogate.agrees p.surrogate then p else q)

/-- The schemas with `p` in the place of the property with its surrogate, in every definition. -/
def rewriteSchemas (p : Property) (schemas : SortedMap String Blueprint) :
    Except Error (SortedMap String Blueprint) :=
  schemas.toList.foldlM (fun (m : SortedMap String Blueprint) e => do
    let (b, ()) ← (e.2.mapProperties (replaceBy p)).run ()
    return m.insert e.1 b) ∅

/-- Replaces the stored property with the surrogate, also in the definitions of all schemas. -/
def updateProperty (s : Store) (p : Property) : Edited Store Unit :=
  .ofExcept s do
    s.checkOwned p.surrogate .property
    match s.findProperty? p.surrogate with
    | none => throw (.propertyNotFound p.surrogate.text)
    | some old =>
      if old.name ≠ p.name then checkFree s.properties .property p.name
      let schemas ← rewriteSchemas p s.schemas
      return ((), { s with schemas, properties := (s.properties.erase old.name).insert p.name p })

def deleteProperty (s : Store) (x : Surrogate) : Edited Store Unit :=
  .ofExcept s do
    match s.findProperty? x with
    | none => throw (.propertyNotFound x.text)
    | some p => return ((), { s with properties := s.properties.erase p.name })

def createChronicle (s : Store) (c : StoredChronicle) : Edited Store UInt64 :=
  .ofExcept s do
    s.checkNew c.surrogate .chronicle
    checkFree s.chronicles .chronicle c.fullName
    let surrogate ← c.surrogate.upgrade s.nextId
    return (s.nextId, { s with
      lastId := s.nextId
      chronicles := s.chronicles.insert c.fullName { c with surrogate } })

/-- Deletes the chronicle with the surrogate. -/
def deleteChronicle (s : Store) (x : Surrogate) : Edited Store Unit :=
  .ofExcept s do
    match s.chronicles.findValue? (·.surrogate.agrees x) with
    | none => throw (.chronicleNotFound x.text)
    | some c => return ((), { s with chronicles := s.chronicles.erase c.fullName })

end Store

end ChronicleMeta
