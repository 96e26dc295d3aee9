import ChronicleMeta.Error
import ChronicleMeta.Text.Basic

/-! Settings, each with a default. -/

namespace ChronicleMeta

structure CacheConfig where
  /-- The greatest number of chronicles kept. -/
  capacity : Nat := 10000
deriving DecidableEq, Repr

structure ResolutionConfig where
  /-- The greatest number of schemas in a base chain. -/
  maxDepth : Nat := 64
  requireComplete : Bool := true
deriving DecidableEq, Repr

structure LoggingConfig where
  level : String := "info"
deriving DecidableEq, Repr

structure Config where
  cache : CacheConfig := {}
  resolution : ResolutionConfig := {}
  logging : LoggingConfig := {}
deriving DecidableEq, Repr

/-- Refuses settings with which a database cannot be opened. -/
def Config.validate (c : Config) : Except Error Unit :=
  if c.cache.capacity = 0 then .error (.configuration "cache.capacity must be at least 1")
  else if c.resolution.maxDepth = 0 then
    .error (.configuration "resolution.max_depth must be at least 1")
  else if (Text.trim c.logging.level.toList).isEmpty then
    .error (.configuration "logging.level must not be empty")
  else .ok ()

end ChronicleMeta
