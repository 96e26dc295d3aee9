import ChronicleMeta.Database.Chronicles
import ChronicleMeta.Database.Properties
import ChronicleMeta.Database.Schemas

/-! Sequences of requests to a database, with what each answers and the database it leaves. -/

namespace ChronicleMeta.Database

inductive Request where
  | updateSchema (b : Blueprint)
  | deleteSchema (name : String)
  | createProperty (p : Property)
  | updateProperty (p : Property)
  | deleteProperty (name : String)
  | createChronicle (fullName : String) (description : Option String) (schemaName : String)
  | deleteChronicle (fullName : String)
  | chronicle (fullName : String)
  | property (name : String)

def Request.isRead : Request → Bool
  | .chronicle _ | .property _ => true
  | _ => false

inductive Reply where
  | done
  | blueprint (b : Blueprint)
  | property (p : Property)
  | chronicle (c : Chronicle)

def serve (db : Database) : Request → Outcome Failure Database Reply
  | .updateSchema b => (db.updateSchema b).map .blueprint
  | .deleteSchema name => (db.deleteSchema name).map fun _ => .done
  | .createProperty p => (db.createProperty p).map .property
  | .updateProperty p => (db.updateProperty p).map fun _ => .done
  | .deleteProperty name => (db.deleteProperty name).map fun _ => .done
  | .createChronicle fullName description schemaName =>
    (db.createChronicle fullName description schemaName).map .chronicle
  | .deleteChronicle fullName => (db.deleteChronicle fullName).map fun _ => .done
  | .chronicle fullName => (db.chronicle fullName).map .chronicle
  | .property name => ⟨Failure.ofError ((db.property name).map .property), db⟩

def run (db : Database) (rs : List Request) : Database :=
  rs.foldl (fun db r => (db.serve r).state) db

/-- A database with nothing stored, in which everything is permitted. -/
def fresh (database : DatabaseId) (capacity : Nat) (h : 0 < capacity) (naming : Naming)
    (resolution : ResolutionConfig) : Database :=
  { store := { database }, cache := { capacity, capacity_pos := h }, naming, resolution }

/-- Whether a schema that is to be saved refers only to built-in properties and to stored ones as
they are stored. -/
def Admits (db : Database) : Request → Prop
  | .updateSchema b => ∀ p ∈ b.properties,
    p ∈ Builtin.properties ∨ db.store.findProperty? p.surrogate = some p
  | _ => True

/-- Whether each schema, when it is saved, refers only to such properties. -/
def Admissible (db : Database) : List Request → Prop
  | [] => True
  | r :: rs => db.Admits r ∧ (db.serve r).state.Admissible rs

end ChronicleMeta.Database
