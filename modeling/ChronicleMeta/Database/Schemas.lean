import ChronicleMeta.Database.Basic

/-! Schemas of a database. -/

namespace ChronicleMeta.Database

def newSchema (db : Database) (name : String) : Blueprint :=
  { surrogate := .pending db.store.database .schema, name }

def editSchema (db : Database) (name : String) : Except Error Blueprint := do
  let b ← db.loadSchema name
  db.check .modify b.surrogate
  return b.edit

def schema (db : Database) (name : String) : Except Failure Schema := do
  let b ← db.loadSchema name
  db.check .read b.surrogate
  b.resolve db.store.source db.resolution

/-- Saves the session of a schema whose chain can be followed, and gives the schema with the session
closed. A new schema gets its id; for any other the cache is emptied first. -/
def save (db : Database) (b : Blueprint) : Outcome Failure Database Blueprint :=
  let checked : Except Error (List Blueprint) := do
    b.ensureEditing
    b.chain db.store.source ({} : ResolutionConfig).maxDepth
  db.whenOk (Failure.ofError checked) fun _ =>
    if b.surrogate.isPending then
      (db.onStore (·.createSchema b)).andThen fun id db =>
        db.whenOk (Failure.ofError (b.upgrade id)) fun b => .ok db b.close
    else
      (db.clearCache.onStore (·.updateSchema b)).andThen fun () db => .ok db b.close

def updateSchema (db : Database) (b : Blueprint) : Outcome Failure Database Blueprint :=
  let permission := if b.surrogate.isPending then Permission.create else .modify
  db.whenOk (Failure.ofError (db.check permission b.surrogate)) fun () => db.save b

/-- The first of the schemas, other than the one of the name, that has `x` in its chain. -/
def dependent? (db : Database) (name : String) (x : Surrogate) :
    List String → Except Error (Option String)
  | [] => .ok none
  | other :: names => do
    if other = name then db.dependent? name x names
    else
      let chain ← (← db.loadSchema other).dependencies db.store.source db.resolution.maxDepth
      if chain.any (·.agrees x) then return some other else db.dependent? name x names

/-- The stored schema of the name, if it may be deleted: no other schema has it in its chain, and no
chronicle uses it. -/
def deletableSchema (db : Database) (name : String) : Except Error Blueprint := do
  let b ← db.loadSchema name
  db.check .delete b.surrogate
  if let some other ← db.dependent? name b.surrogate (db.store.schemasMatching "*") then
    throw (.schemaInUse name s!"schema {other}")
  if let some chronicle := (db.store.chroniclesUsing b.surrogate).head? then
    throw (.schemaInUse name s!"chronicle {chronicle}")
  return b

/-- Deletes a schema that nothing depends on. -/
def deleteSchema (db : Database) (name : String) : Outcome Failure Database Unit :=
  db.whenOk (Failure.ofError (db.deletableSchema name)) fun b =>
    db.clearCache.onStore (·.deleteSchema b.surrogate)

end ChronicleMeta.Database
