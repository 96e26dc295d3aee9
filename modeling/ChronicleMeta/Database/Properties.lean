import ChronicleMeta.Database.Basic

/-! Properties of a database. -/

namespace ChronicleMeta.Database

/-- The built-in or stored property of the name. A cached one is taken before the stored one. -/
def property (db : Database) (name : String) : Except Error Property :=
  match db.cache.property? name with
  | some p => .ok p
  | none => match db.store.properties.get? name with
    | some p => .ok p
    | none => .error (.propertyNotFound name)

def createProperty (db : Database) (p : Property) : Outcome Failure Database Property :=
  db.whenOk (Failure.ofError (db.check .create p.surrogate)) fun () =>
    (db.onStore (·.createProperty p)).andThen fun id db =>
      db.whenOk (Failure.ofError (p.upgrade id)) (.ok db ·)

def updateProperty (db : Database) (p : Property) : Outcome Failure Database Unit :=
  db.whenOk (Failure.ofError (db.check .modify p.surrogate)) fun () =>
    db.clearCache.onStore (·.updateProperty p)

/-- The name of the first stored schema that refers to the property. -/
def user? (db : Database) (p : Property) : Option String :=
  (db.store.schemas.toList.find? fun e =>
    e.2.properties.any (·.surrogate.agrees p.surrogate)).map (·.1)

/-- The property of the name, if it may be deleted: it is not built-in, and no stored schema refers
to it. -/
def deletableProperty (db : Database) (name : String) : Except Error Property := do
  let p ← db.property name
  if p.isBuiltin then throw (.ofArgument (.builtinProperty name))
  db.check .delete p.surrogate
  if let some schema := db.user? p then throw (.ofArgument (.propertyInUse name schema))
  return p

/-- Deletes a property that nothing refers to. -/
def deleteProperty (db : Database) (name : String) : Outcome Failure Database Unit :=
  db.whenOk (Failure.ofError (db.deletableProperty name)) fun p =>
    db.clearCache.onStore (·.deleteProperty p.surrogate)

end ChronicleMeta.Database
