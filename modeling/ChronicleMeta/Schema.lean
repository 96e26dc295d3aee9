import ChronicleMeta.Definitions

/-! Resolved schemas: the definitions of a schema and all its bases, flattened. -/

namespace ChronicleMeta

/-- A resolved schema. It is never changed. -/
structure Schema where
  surrogate : Surrogate
  name : String
  definitions : Definitions
  /-- The schemas it was resolved from: itself, its base and so on. -/
  dependencies : List Surrogate

namespace Schema

def label (s : Schema) : String := s!"schema {s.name}"

def dependsOn (s : Schema) (other : Surrogate) : Bool := s.dependencies.any (·.agrees other)

/-- The properties referred to, with repetitions. -/
def properties (s : Schema) : List Property := s.definitions.properties

def ensureComplete (s : Schema) : Except Failure Unit := do
  match ← s.definitions.incompleteness? with
  | none => return
  | some missing => throw (.error (.incompleteSchema s.name missing.message))

/-- The schema with each property changed. -/
def mapProperties {m : Type → Type} [Monad m] [MonadLiftT (Except Error) m]
    (f : Property → m Property) (s : Schema) : m Schema := do
  return { s with definitions := ← s.definitions.mapProperties f }

/-- Whether both are the same stored schema with the same contents. -/
def agrees (a b : Schema) : Bool :=
  a.surrogate.agrees b.surrogate && a.name = b.name && a.definitions.agrees b.definitions
    && a.dependencies.length = b.dependencies.length
    && (a.dependencies.zip b.dependencies).all fun (s, t) => s.agrees t

end Schema

end ChronicleMeta
