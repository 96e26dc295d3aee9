import ChronicleMeta.Blueprint.Basic
import ChronicleMeta.Config
import ChronicleMeta.Schema

/-!
Resolution of schemas. The levels of the chain from a schema over its base, the base of the base and so
on are laid over one another, the root first: a derived definition sets the property and the value it
has and inherits the others, and a removal takes away what is inherited under its number.
-/

namespace ChronicleMeta

/-- Where base schemas are found: the schema of a name, if there is one. -/
abbrev Source : Type := String → Except Error (Option Blueprint)

namespace Blueprint

/-- Follows bases from `next` on. The schemas met so far are `walked`, under the names `visited`,
and `room` more may follow. That a name comes again is reported before that there is no room, and
this before that the schema does not exist. -/
def walk (source : Source) (maxDepth : Nat) (start : String) :
    (room : Nat) → (visited : List String) → (walked : List Blueprint) → (next : Option String) →
      Except Error (List Blueprint)
  | _, _, walked, none => .ok walked
  | room, visited, walked, some name =>
    let names := walked.map (·.name) ++ [name]
    if name ∈ visited then .error (.schemaCycle names)
    else match room with
      | 0 => .error (.schemaChainTooDeep start maxDepth names)
      | room + 1 => do
        match ← source name with
        | none => throw (.schemaNotFound name)
        | some base => walk source maxDepth start room (name :: visited) (walked ++ [base]) base.base

/-- The schema and its bases, most derived first: at most `maxDepth` schemas of different names. -/
def chain (source : Source) (maxDepth : Nat) (b : Blueprint) : Except Error (List Blueprint) :=
  walk source maxDepth b.name (maxDepth - 1) [b.name] [b] b.base

/-- What the schemas of the chain are stored under, most derived first. -/
def dependencies (source : Source) (maxDepth : Nat) (b : Blueprint) : Except Error (List Surrogate) :=
  (b.chain source maxDepth).map fun chain => chain.map (·.surrogate)

/-- The definitions of the levels laid over one another, the last of the list at the bottom. -/
def flatten (levels : List Definitions) : Except Error Definitions :=
  (levels.reverse.foldlM Definitions.merge {}).map (·.consolidate)

/-- The flattened schema, complete or not. -/
def merge (source : Source) (maxDepth : Nat) (b : Blueprint) : Except Error Schema := do
  let chain ← b.chain source maxDepth
  let definitions ← flatten (chain.map (·.definitions))
  return {
    surrogate := b.surrogate
    name := b.name
    definitions
    dependencies := chain.map (·.surrogate) }

/-- The flattened schema, which has to be complete if the settings say so. -/
def resolve (source : Source) (config : ResolutionConfig) (b : Blueprint) : Except Failure Schema := do
  let schema ← b.merge source config.maxDepth
  if config.requireComplete then schema.ensureComplete
  return schema

end Blueprint

end ChronicleMeta
