import GLHeader.Release
import GLHeader.Xml.Document

namespace GLHeader

/-- The API, version and profile that a header is wanted for. The profile selects nothing. -/
structure Target where
  api : String
  version : String
  profile : String
deriving DecidableEq, Repr

structure Surface where
  target : Target
  types : List String
  features : List Feature
  hasVersion : Bool
deriving DecidableEq, Repr

namespace Surface

def ofReleases (registry : Registry) (releases : List Release) (target : Target) : Surface where
  target
  types := registry.types
  features := (Release.through target.version releases).map (Release.toFeature registry)
  hasVersion := releases.any (·.version == target.version)

/-- Every definition of the registry must be sound, whether or not the target reaches it. -/
def ofRoot (root : Xml.Element) (target : Target) : Except Defect Surface := do
  let registry ← Registry.ofRoot root
  let releases ← Release.ofRoot root target.api
  return ofReleases registry releases target

def constantTotal (s : Surface) : Nat := (s.features.map (·.constants.length)).foldr (· + ·) 0

def commandTotal (s : Surface) : Nat := (s.features.map (·.commands.length)).foldr (· + ·) 0

end Surface

end GLHeader
