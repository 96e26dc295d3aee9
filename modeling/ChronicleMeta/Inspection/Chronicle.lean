import ChronicleMeta.Cache.Basic
import ChronicleMeta.Json.Basic
import ChronicleMeta.Store

/-! What chronicles and their cache look like from outside, as data. -/

namespace ChronicleMeta

def Chronicle.inspect (c : Chronicle) : Json :=
  let schema := c.schema.schema
  let definition (a : Attribute) : Json :=
    .array [
      .ofUInt32 a.number,
      .ofText? (a.property.map (·.name)),
      .ofOption (fun p => .bool p.indexed) a.property,
      .ofText? (a.value.map (·.toText))]
  let series (s : Series) : Json := .array [.ofUInt32 s.number, .ofText? s.name?]
  .object [
    ("surrogate", .string c.surrogate.text),
    ("name", .string c.name),
    ("full_name", .string c.fullName),
    ("description", .ofText? c.description),
    ("parent", .ofText? (c.parent.map (·.text))),
    ("top_level", .bool c.isTopLevel),
    ("schema", .string schema.name),
    ("schema_surrogate", .string schema.surrogate.text),
    ("attributes", .array (schema.definitions.attributes.components.map definition)),
    ("series", .array (schema.definitions.series.components.map series))]

def StoredChronicle.inspect (c : StoredChronicle) : Json :=
  .object [
    ("surrogate", .string c.surrogate.text),
    ("full_name", .string c.fullName),
    ("description", .ofText? c.description),
    ("parent", .ofText? (c.parent.map (·.text))),
    ("schema", .string c.schema.text)]

def Cache.inspect (c : Cache) : Json :=
  .object [
    ("size", .ofNat c.size),
    ("empty", .bool c.chronicles.isEmpty),
    ("hits", .ofNat c.stats.hits),
    ("misses", .ofNat c.stats.misses),
    ("evictions", .ofNat c.stats.evictions),
    ("stores", .ofNat c.stats.stores)]

end ChronicleMeta
