import ChronicleMeta.Config
import ChronicleMeta.Json.Basic

/-! Settings as data. Each section and each setting may be left out; others do not matter. -/

namespace ChronicleMeta

def sizeOfJson? (j : Json) : Option Nat := j.natural? UInt64.size

def CacheConfig.ofJson? (j : Json) : Option CacheConfig := do
  let fields ← j.record? ["capacity"]
  let capacity ← Json.defaulted? fields "capacity" ({} : CacheConfig).capacity sizeOfJson?
  return { capacity }

def ResolutionConfig.ofJson? (j : Json) : Option ResolutionConfig := do
  let fields ← j.record? ["max_depth", "require_complete"]
  let default : ResolutionConfig := {}
  let maxDepth ← Json.defaulted? fields "max_depth" default.maxDepth sizeOfJson?
  let requireComplete ← Json.defaulted? fields "require_complete" default.requireComplete (·.bool?)
  return { maxDepth, requireComplete }

def LoggingConfig.ofJson? (j : Json) : Option LoggingConfig := do
  let fields ← j.record? ["level"]
  let level ← Json.defaulted? fields "level" ({} : LoggingConfig).level (·.string?)
  return { level }

namespace Config

def ofJson? (j : Json) : Option Config := do
  let fields ← j.record? ["cache", "resolution", "logging"]
  let cache ← Json.defaulted? fields "cache" {} CacheConfig.ofJson?
  let resolution ← Json.defaulted? fields "resolution" {} ResolutionConfig.ofJson?
  let logging ← Json.defaulted? fields "logging" {} LoggingConfig.ofJson?
  return { cache, resolution, logging }

def toJson (c : Config) : Json :=
  .object [
    ("cache", .object [("capacity", .ofNat c.cache.capacity)]),
    ("resolution", .object [
      ("max_depth", .ofNat c.resolution.maxDepth),
      ("require_complete", .bool c.resolution.requireComplete)]),
    ("logging", .object [("level", .string c.logging.level)])]

end Config

end ChronicleMeta
