import LoadTiers.Path
import LoadTiers.Text.Blank

/-! # Where registries are searched

The files that are tried, in their order, when nobody says where the registry is.
-/

namespace LoadTiers

structure Environment where
  /-- `VULKAN_SDK`. -/
  sdk : Option String := none
  /-- `VULKAN_SDK_PATH`. -/
  sdkPath : Option String := none
  /-- `HOME`. -/
  home : Option String := none
  deriving DecidableEq, Inhabited

namespace Environment

/-- The directories below which software may be installed: those of the SDK unless they are blank,
the one at home unless it is empty, and those of the system. -/
def installations (e : Environment) : List String :=
  (e.sdk.toList ++ e.sdkPath.toList).filter (Text.trim · ≠ "") ++
    (e.home.toList.filter (· ≠ "")).map (Path.join · ".local") ++ ["/usr/local", "/usr"]

def candidates (e : Environment) : List String :=
  e.installations.map (Path.join · "share/vulkan/registry/vk.xml")

end Environment

end LoadTiers
