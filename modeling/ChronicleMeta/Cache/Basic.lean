import ChronicleMeta.Chronicle
import ChronicleMeta.Number.Binary64
import ChronicleMeta.Outcome

/-!
A bounded cache of chronicles, in the order of their last use. Chronicles of one schema share one copy
of it, and schemas share their properties. How many chronicles use a schema and how many schemas use a
property is counted, and what nothing uses is dropped. Built-in properties are always there and are not
counted.
-/

namespace ChronicleMeta

/-- Entries by key, each key once, the latest used first. -/
abbrev Recency (κ α : Type) : Type := List (κ × α)

namespace Recency

variable {κ α : Type} [DecidableEq κ]

def get? (l : Recency κ α) (k : κ) : Option α := (l.find? (·.1 = k)).map (·.2)

def erase (l : Recency κ α) (k : κ) : Recency κ α := l.filter (·.1 ≠ k)

/-- The entries with that of the key, if there is one, moved to the front. -/
def promote (l : Recency κ α) (k : κ) : Recency κ α :=
  match l.get? k with
  | some a => (k, a) :: l.erase k
  | none => l

/-- The entries with one put at the front, and the entry displaced by it: the one with the same key,
or the last one if there would be more than `capacity`. -/
def push (capacity : Nat) (l : Recency κ α) (k : κ) (a : α) : Option (κ × α) × Recency κ α :=
  match l.get? k with
  | some old => (some (k, old), (k, a) :: l.erase k)
  | none =>
    if l.length < capacity then (none, (k, a) :: l)
    else (l.getLast?, (k, a) :: l.dropLast)

end Recency

structure CacheStats where
  hits : Nat := 0
  misses : Nat := 0
  evictions : Nat := 0
  stores : Nat := 0
deriving DecidableEq, Repr

/-- The part of the look-ups that found their chronicle; zero if there were none. -/
def CacheStats.hitRatio (s : CacheStats) : Number.Binary64 :=
  if s.hits + s.misses = 0 then .ofMagnitude false 0
  else .ofFraction false s.hits (s.hits + s.misses)

/-- Something shared, and by how many it is used. -/
structure Counted (α : Type) where
  uses : Nat
  value : α

structure Cache where
  /-- The greatest number of chronicles. -/
  capacity : Nat
  capacity_pos : 0 < capacity
  /-- The chronicles, the latest used first. -/
  chronicles : Recency Identity Chronicle := []
  /-- The chronicle last stored under a full name. -/
  names : SortedMap String Identity := ∅
  /-- The schemas, counted by chronicles. -/
  schemas : SortedMap Identity (Counted SharedSchema) := ∅
  /-- The properties, counted by schemas. -/
  properties : SortedMap Identity (Counted Property) := ∅
  stats : CacheStats := {}
  copies : Nat := 0

namespace Cache

/-- The greatest capacity. The places of all chronicles are set aside from the start, in a table of
at most `2 ^ 58` places of which an eighth stays free. -/
def capacityLimit : Nat := 7 <<< 55

/-- An empty cache for at most `capacity` chronicles. -/
def ofCapacity (capacity : Nat) : Except Failure Cache :=
  if h : 0 < capacity then
    if capacity ≤ capacityLimit then .ok { capacity, capacity_pos := h }
    else .error (.fault (.tableTooLarge capacity))
  else .error (.error (.configuration "cache capacity must be greater than 0"))

def size (c : Cache) : Nat := c.chronicles.length

def record (c : Cache) (hit : Bool) : Cache :=
  { c with stats :=
      if hit then { c.stats with hits := c.stats.hits + 1 }
      else { c.stats with misses := c.stats.misses + 1 } }

def resetStats (c : Cache) : Cache := { c with stats := {} }

/-- The chronicle of the identity, which becomes the latest used. -/
def lookUpIdentity (c : Cache) (k : Identity) : Option Chronicle × Cache :=
  (c.chronicles.get? k, { c with chronicles := c.chronicles.promote k })

def lookUp (c : Cache) (s : Surrogate) : Option Chronicle × Cache :=
  match s.identity? with
  | none => (none, c.record false)
  | some k =>
    let (found, c) := c.lookUpIdentity k
    (found, c.record found.isSome)

def lookUpName (c : Cache) (fullName : String) : Option Chronicle × Cache :=
  match c.names.get? fullName with
  | none => (none, c.record false)
  | some k =>
    let (found, c) := c.lookUpIdentity k
    (found, c.record found.isSome)

def schema? (c : Cache) (s : Surrogate) : Option SharedSchema :=
  s.identity?.bind c.schemas.get? |>.map (·.value)

/-- The shared copy of a built-in or cached property. -/
def property? (c : Cache) (name : String) : Option Property :=
  match Builtin.property? name with
  | some p => some p
  | none => (c.properties.findValue? (·.value.name = name)).map (·.value)

/-- The number of cached chronicles that use a schema. -/
def schemaUses? (c : Cache) (s : Surrogate) : Option Nat :=
  s.identity?.bind c.schemas.get? |>.map (·.uses)

/-- The number of cached schemas that use a property. -/
def propertyUses? (c : Cache) (s : Surrogate) : Option Nat :=
  s.identity?.bind c.properties.get? |>.map (·.uses)

def clear (c : Cache) : Cache :=
  { c with chronicles := [], names := ∅, schemas := ∅, properties := ∅ }

end Cache

end ChronicleMeta
