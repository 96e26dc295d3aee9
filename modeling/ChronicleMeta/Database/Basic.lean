import ChronicleMeta.Blueprint.Resolution
import ChronicleMeta.Cache.Storing
import ChronicleMeta.Permission
import ChronicleMeta.Store

/-!
Databases of chronicles: a store with a cache before it, permissions and a way to name chronicles.
A change empties the cache before it reaches the store.
-/

namespace ChronicleMeta

structure Database where
  store : Store
  /-- The chronicles read last. -/
  cache : Cache
  granted : Permissions := .all
  naming : Naming := {}
  resolution : ResolutionConfig := {}

namespace Database

variable {α β : Type}

def ofStore (store : Store) (config : Config) : Except Failure Database := do
  config.validate
  let cache ← Cache.ofCapacity config.cache.capacity
  return { store, cache, resolution := config.resolution }

/-- Refuses an operation without permission. -/
def check (db : Database) (p : Permission) (x : Surrogate) : Except Error Unit :=
  db.granted.check p x

def withStore (db : Database) (store : Store) : Database := { db with store }

def withCache (db : Database) (cache : Cache) : Database := { db with cache }

def clearCache (db : Database) : Database := { db with cache := db.cache.clear }

/-- Goes on with what the check gives, or fails and changes nothing. -/
def whenOk (db : Database) (checked : Except Failure α) (act : α → Outcome Failure Database β) :
    Outcome Failure Database β :=
  match checked with
  | .error e => .fail db e
  | .ok a => act a

def onStore (db : Database) (act : Store → Edited Store α) : Outcome Failure Database α :=
  ((act db.store).mapError .error).inState db.withStore

def loadSchema (db : Database) (name : String) : Except Error Blueprint :=
  match db.store.schema? name with
  | some b => .ok b
  | none => .error (.schemaNotFound name)

def loadChronicle (db : Database) (fullName : String) : Except Error StoredChronicle :=
  match db.store.chronicles.get? fullName with
  | some c => .ok c
  | none => .error (.chronicleNotFound fullName)

end Database

end ChronicleMeta
