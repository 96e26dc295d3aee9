import ChronicleMeta.Cache.Basic

/-! How the cache shares schemas and properties, and counts their uses. -/

namespace ChronicleMeta.Cache

/-- The shared properties while a schema is being taken up. -/
structure Sharing where
  properties : SortedMap Identity (Counted Property)
  acquired : List Identity := []

/-- The shared copy of a property: the built-in one of its name if it is built-in, else the cached
one, else the property itself, which is cached. It is counted once for a schema. -/
def shareProperty {m : Type → Type} [Monad m] [MonadStateOf Sharing m] [MonadLiftT (Except Error) m]
    (p : Property) : m Property := do
  match if p.isBuiltin then Builtin.property? p.name else none with
  | some builtin => return builtin
  | none =>
    let k ← p.surrogate.identity
    let sharing ← get
    let entry := (sharing.properties.get? k).getD ⟨0, p⟩
    if k ∈ sharing.acquired then return entry.value
    set ({
      properties := sharing.properties.insert k { entry with uses := entry.uses + 1 }
      acquired := k :: sharing.acquired } : Sharing)
    return entry.value

def share : PropertyMap Sharing := shareProperty

/-- The copy of the schema that chronicles share, with one more use counted. The first use makes
the copy, with shared properties. -/
def acquireSchema (c : Cache) (k : Identity) (schema : Schema) : Except Error (SharedSchema × Cache) :=
  match c.schemas.get? k with
  | some entry =>
    .ok (entry.value, { c with schemas := c.schemas.insert k { entry with uses := entry.uses + 1 } })
  | none => do
    let (schema, sharing) ← (schema.mapProperties share).run { properties := c.properties }
    let shared : SharedSchema := { schema, origin := some (.cached c.copies) }
    return (shared, { c with
      schemas := c.schemas.insert k ⟨1, shared⟩
      properties := sharing.properties
      copies := c.copies + 1 })

/-- The properties with one use of `k` less; an unused one is dropped. -/
def releaseProperty (properties : SortedMap Identity (Counted Property)) (k : Identity) :
    SortedMap Identity (Counted Property) :=
  match properties.get? k with
  | none => properties
  | some entry =>
    if entry.uses ≤ 1 then properties.erase k
    else properties.insert k { entry with uses := entry.uses - 1 }

/-- The properties that are counted for the schema, each once. -/
def countedProperties (schema : Schema) : List Identity :=
  ((schema.properties.filter (!·.isBuiltin)).filterMap (·.surrogate.identity?)).eraseDups

/-- The cache with one use of the schema less; an unused schema is dropped with its uses of
properties. -/
def releaseSchema (c : Cache) (schema : Schema) : Except Fault Cache := do
  let k ← schema.surrogate.committedIdentity
  match c.schemas.get? k with
  | none => return c
  | some ⟨0, _⟩ => throw .countBelowZero
  | some ⟨1, _⟩ =>
    return { c with
      schemas := c.schemas.erase k
      properties := (countedProperties schema).foldl releaseProperty c.properties }
  | some ⟨uses + 2, value⟩ => return { c with schemas := c.schemas.insert k ⟨uses + 1, value⟩ }

end ChronicleMeta.Cache
