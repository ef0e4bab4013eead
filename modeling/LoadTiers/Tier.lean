import LoadTiers.TypeGraph.Walk

/-! # Tiers

The stage at which an entry point can be loaded, and the policy that tells it from the name and the
owner type.
-/

namespace LoadTiers

/-- The stage at which an entry point can be loaded. -/
inductive Tier
  /-- Before any object exists. -/
  | global
  /-- Through the global loader, with an instance. -/
  | scopeA
  /-- Through a loader of its own, with an object below the root of the second scope. -/
  | scopeB
  deriving DecidableEq, Inhabited, Repr

namespace Tier

def all : List Tier := [global, scopeA, scopeB]

instance : ToString Tier where
  toString
    | global => "global"
    | scopeA => "scope_a"
    | scopeB => "scope_b"

theorem mem_all (t : Tier) : t ∈ all := by cases t <;> simp [all]

end Tier

/-- What sorts entry points into tiers. The fields start as they are for Vulkan. -/
structure TierPolicy where
  /-- Entry points that can be called before any object exists. -/
  globalEntryPoints : NameSet := .ofList
    ["vkEnumerateInstanceVersion", "vkEnumerateInstanceExtensionProperties",
      "vkEnumerateInstanceLayerProperties", "vkCreateInstance", "vkGetInstanceProcAddr"]
  /-- Owner types that descend from it belong to the second scope. -/
  scopeBRoot : String := "VkDevice"
  /-- Loads the global tier and the first scope. -/
  globalLoader : String := "vkGetInstanceProcAddr"
  /-- Loads the second scope, and itself belongs to the first. -/
  scopeBLoader : String := "vkGetDeviceProcAddr"
  deriving DecidableEq

namespace TierPolicy

def vulkan : TierPolicy := {}

instance : Inhabited TierPolicy := ⟨vulkan⟩

def classify (policy : TierPolicy) (types : TypeGraph) (name : String) (owner : Option String) :
    Except RegistryError Tier :=
  if name ∈ policy.globalEntryPoints then .ok .global
  else if name = policy.scopeBLoader then .ok .scopeA
  else match owner with
    | none => .ok .scopeA
    | some owner => do
      return if ← types.isDescendant owner policy.scopeBRoot then .scopeB else .scopeA

/-- Whether the entry point loads the tier, and so cannot be loaded in it. -/
def isLoaderFor (policy : TierPolicy) (name : String) : Tier → Bool
  | .global => name == policy.globalLoader
  | .scopeA => false
  | .scopeB => name == policy.scopeBLoader

end TierPolicy

end LoadTiers
