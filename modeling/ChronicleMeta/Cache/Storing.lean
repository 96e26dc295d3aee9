import ChronicleMeta.Cache.Sharing

/-! Storing chronicles in the cache, and dropping them. -/

namespace ChronicleMeta.Cache

/-- The cache in which the full name does not lead to the chronicle any more. -/
def forgetName (c : Cache) (k : Identity) (chronicle : Chronicle) : Cache :=
  if c.names.get? chronicle.fullName = some k then
    { c with names := c.names.erase chronicle.fullName }
  else c

/-- The cache after the chronicle has been taken from the list. -/
def release (c : Cache) (k : Identity) (chronicle : Chronicle) : Except Fault Cache :=
  (c.forgetName k chronicle).releaseSchema chronicle.schema.schema

/-- The cache with the chronicle, whose schema is shared, at the front of the list. What it displaces
is released. -/
def place (c : Cache) (k : Identity) (chronicle : Chronicle) : Except Fault Cache := do
  let (displaced, chronicles) := c.chronicles.push c.capacity k chronicle
  let c := { c with chronicles, stats := { c.stats with stores := c.stats.stores + 1 } }
  let c ← match displaced with
    | none => pure c
    | some (old, dropped) =>
      let evicted := if old = k then 0 else 1
      { c with stats := { c.stats with evictions := c.stats.evictions + evicted } }.release old dropped
  return { c with names := c.names.insert chronicle.fullName k }

/-- Stores a chronicle with its schema shared, and gives it as stored. There is nothing to store if
an equal one is cached already, which becomes the latest used. Nothing that is pending is stored. -/
def store (c : Cache) (chronicle : Chronicle) : Outcome Failure Cache (Option Chronicle) :=
  .ofExcept c do
    let k ← chronicle.surrogate.identity
    let schemaKey ← chronicle.schema.schema.surrogate.identity
    if (c.chronicles.get? k).any (·.agrees chronicle) then
      return (none, { c with chronicles := c.chronicles.promote k })
    let (shared, c) ← c.acquireSchema schemaKey chronicle.schema.schema
    let stored := { chronicle with schema := shared }
    return (some stored, ← c.place k stored)

/-- Drops a chronicle, and tells whether there was one. -/
def clearChronicle (c : Cache) (s : Surrogate) : Outcome Failure Cache Bool :=
  .ofExcept c do
    match s.identity?.bind fun k => (c.chronicles.get? k).map (k, ·) with
    | none => return (false, c)
    | some (k, chronicle) =>
      return (true, ← { c with chronicles := c.chronicles.erase k }.release k chronicle)

end ChronicleMeta.Cache
