import ChronicleMeta.Cache.Basic
import ChronicleMeta.Report.Basic

/-! Reports on the cache. -/

namespace ChronicleMeta

structure CacheSummary where
  /-- The greatest number of chronicles. -/
  capacity : Nat
  size : Nat
  stats : CacheStats
  /-- The names of schemas, each with the number of chronicles that share it. -/
  schemas : List (String × Nat)

namespace CacheSummary

def row (schema chronicles : String) : String :=
  s!"{Text.padRight 30 schema} {Text.padRight 10 chronicles}"

instance : Report CacheSummary where
  lines c :=
    Text.heading "Metadata Cache"
      ++ [s!"Chronicles: {c.size}/{c.capacity}", s!"Stores: {c.stats.stores}",
        s!"Hits: {c.stats.hits}", s!"Misses: {c.stats.misses}", s!"Evictions: {c.stats.evictions}",
        "Hit ratio: " ++ String.ofList c.stats.hitRatio.twoPlaces, "",
        row "SHARED SCHEMA" "CHRONICLES", Text.rule '-' 42]
      ++ c.schemas.map fun (name, uses) => row name (toString uses)
  toJson c :=
    .object [
      ("capacity", .ofNat c.capacity),
      ("size", .ofNat c.size),
      ("hits", .ofNat c.stats.hits),
      ("misses", .ofNat c.stats.misses),
      ("evictions", .ofNat c.stats.evictions),
      ("stores", .ofNat c.stats.stores),
      ("hit_ratio", .number ⟨c.stats.hitRatio.pointedText⟩),
      ("schemas", .array (c.schemas.map fun (name, uses) =>
        .object [("name", .string name), ("chronicles", .ofNat uses)]))]

end CacheSummary

end ChronicleMeta
