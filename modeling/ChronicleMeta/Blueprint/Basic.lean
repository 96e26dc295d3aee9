import ChronicleMeta.Definitions

/-!
Blueprints: schemas as they are written and stored. A blueprint has definitions of its own and may
extend a base. It is changed in sessions, and one session changes either the base or the
definitions, values excepted.
-/

namespace ChronicleMeta

structure Changes where
  base : Bool := false
  /-- Definitions: which there are, their properties and what they remove. -/
  structural : Bool := false
  values : Bool := false
deriving DecidableEq, Repr

def Changes.any (c : Changes) : Bool := c.base || c.structural || c.values

/-- A schema as it is written. -/
structure Blueprint where
  surrogate : Surrogate
  name : String
  base : Option String := none
  definitions : Definitions := {}
  editing : Bool := true
  changes : Changes := {}

namespace Blueprint

def label (b : Blueprint) : String := s!"schema {b.name}"

/-- The properties that its own definitions refer to, with repetitions. -/
def properties (b : Blueprint) : List Property := b.definitions.properties

def edit (b : Blueprint) : Blueprint := { b with editing := true }

/-- The blueprint with the changes of the session made permanent, and the session closed. -/
def close (b : Blueprint) : Blueprint :=
  { b with definitions := b.definitions.consolidate, editing := false, changes := {} }

def upgrade (b : Blueprint) (id : UInt64) : Except Error Blueprint :=
  (b.surrogate.upgrade id).map fun s => { b with surrogate := s }

def mapProperties {σ : Type} (f : PropertyMap σ) (b : Blueprint) :
    StateT σ (Except Error) Blueprint := do
  return { b with definitions := ← b.definitions.mapProperties f }

def ensureEditing (b : Blueprint) : Except Error Unit :=
  if b.editing then .ok () else .error (.notEditable b.label)

/-- The blueprint with a change of definitions recorded. The session must not have changed the base. -/
def recordStructural (b : Blueprint) : Except Error Blueprint := do
  b.ensureEditing
  if b.changes.base then
    throw (.conflictingEdit b.name
      "definitions cannot be edited in the session that changes the base")
  return { b with changes := { b.changes with structural := true } }

def recordValues (b : Blueprint) : Except Error Blueprint := do
  b.ensureEditing
  return { b with changes := { b.changes with values := true } }

/-- The blueprint with another base. The session must not have changed definitions. -/
def setBase (b : Blueprint) (base : Option String) : Except Error Blueprint := do
  b.ensureEditing
  if base = b.base then return b
  if b.changes.structural then
    throw (.conflictingEdit b.name "the base cannot change in the session that edits definitions")
  if base = some b.name then throw (.schemaCycle [b.name, b.name])
  return { b with base, changes := { b.changes with base := true } }

end Blueprint

end ChronicleMeta
