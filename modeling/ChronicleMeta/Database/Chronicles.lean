import ChronicleMeta.Database.Basic

/-! Chronicles of a database. -/

namespace ChronicleMeta.Database

/-- The stored chronicle of the full name with its schema, which is taken from the cache if it is
there. -/
def readChronicle (db : Database) (fullName : String) : Except Failure Chronicle := do
  let stored ← db.loadChronicle fullName
  db.check .read stored.surrogate
  let schema ← match db.cache.schema? stored.schema with
    | some shared => pure shared
    | none => match db.store.loadSchema stored.schema with
      | none => throw (.error (.schemaNotFound stored.schema.text))
      | some b => do
        let schema ← b.resolve db.store.source db.resolution
        pure { schema }
  return .ofFullName db.naming stored.surrogate stored.fullName stored.description stored.parent schema

/-- The chronicle of the full name with its schema, from the cache or by way of it. -/
def chronicle (db : Database) (fullName : String) : Outcome Failure Database Chronicle :=
  let (found, cache) := db.cache.lookUpName fullName
  let db := db.withCache cache
  match found with
  | some c => .ok db c
  | none => db.whenOk (db.readChronicle fullName) fun c =>
    ((db.cache.store c).inState db.withCache).andThen fun
      | some stored, db => .ok db stored
      | none, db =>
        let (cached, cache) := db.cache.lookUp c.surrogate
        .ok (db.withCache cache) (cached.getD c)

/-- The new chronicle of the full name, if it may be created: its parent exists, and the schema can
be resolved. -/
def creatableChronicle (db : Database) (fullName : String) (description : Option String)
    (schemaName : String) : Except Failure StoredChronicle := do
  let (parentName, name) := db.naming.split fullName
  db.naming.validate name
  let parent ← match parentName with
    | none => pure none
    | some parentName => do
      let parent ← db.loadChronicle parentName
      db.check .create parent.surrogate
      pure (some parent.surrogate)
  let b ← db.loadSchema schemaName
  db.check .read b.surrogate
  let _ ← b.resolve db.store.source db.resolution
  return {
    surrogate := .pending db.store.database .chronicle
    fullName, description, parent
    schema := b.surrogate }

def createChronicle (db : Database) (fullName : String) (description : Option String)
    (schemaName : String) : Outcome Failure Database Chronicle :=
  db.whenOk (db.creatableChronicle fullName description schemaName) fun stored =>
    (db.onStore (·.createChronicle stored)).andThen fun _ db => db.chronicle fullName

/-- The stored chronicle of the full name, if it may be deleted. -/
def deletableChronicle (db : Database) (fullName : String) : Except Error StoredChronicle := do
  let stored ← db.loadChronicle fullName
  db.check .delete stored.surrogate
  return stored

/-- Deletes a chronicle, from the cache first. -/
def deleteChronicle (db : Database) (fullName : String) : Outcome Failure Database Unit :=
  db.whenOk (Failure.ofError (db.deletableChronicle fullName)) fun stored =>
    ((db.cache.clearChronicle stored.surrogate).inState db.withCache).andThen fun _ db =>
      db.onStore (·.deleteChronicle stored.surrogate)

end ChronicleMeta.Database
