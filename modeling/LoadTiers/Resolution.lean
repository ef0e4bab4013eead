import LoadTiers.Registry
import LoadTiers.Request

/-! # Resolutions

The answer of a registry to a request: the enabled entry points by tier, the order to load them in,
and which features are enabled.
-/

namespace LoadTiers

structure TierBuckets where
  global : List String := []
  scopeA : List String := []
  scopeB : List String := []
  deriving DecidableEq, Inhabited

namespace TierBuckets

def get (b : TierBuckets) : Tier → List String
  | .global => b.global
  | .scopeA => b.scopeA
  | .scopeB => b.scopeB

def ofTiers (f : Tier → List String) : TierBuckets := ⟨f .global, f .scopeA, f .scopeB⟩

@[simp] theorem get_ofTiers (f : Tier → List String) (t : Tier) : (ofTiers f).get t = f t := by
  cases t <;> rfl

def size (b : TierBuckets) : Nat := b.global.length + b.scopeA.length + b.scopeB.length

/-- All names with their tiers, in loading order. -/
def toList (b : TierBuckets) : List (Tier × String) :=
  Tier.all.flatMap fun t => (b.get t).map (t, ·)

end TierBuckets

structure FeatureSummary where
  name : String
  version : Version
  deprecated : Bool := false
  supersededBy : Option String := none
  deriving DecidableEq, Inhabited

def Feature.summary (f : Feature) : FeatureSummary :=
  ⟨f.name, f.version, f.isDeprecated, f.supersededBy⟩

/-- The features of one kind, parted by whether they are enabled. -/
structure FeatureTable where
  enabled : List FeatureSummary := []
  disabled : List FeatureSummary := []
  deriving DecidableEq, Inhabited

namespace FeatureTable

def ofFeatures (enabled : Feature → Bool) (fs : List Feature) : FeatureTable where
  enabled := (fs.filter enabled).map (·.summary)
  disabled := (fs.filter fun f => !enabled f).map (·.summary)

def isEnabled (t : FeatureTable) (name : String) : Bool := t.enabled.any (·.name == name)

end FeatureTable

/-- The aliases that enabled a canonical entry point. -/
structure AliasGroup where
  canonical : String
  aliases : NameSet
  deriving DecidableEq, Inhabited

abbrev AliasTable := Roster AliasGroup.canonical

namespace AliasTable

def aliasesOf (t : AliasTable) (canonical : String) : NameSet :=
  match t.get? canonical with
  | some group => group.aliases
  | none => ∅

def add (t : AliasTable) (canonical name : String) : AliasTable :=
  t.insert ⟨canonical, (t.aliasesOf canonical).insert name⟩

end AliasTable

structure Resolution where
  flavor : String
  requestedVersion : String
  tiers : TierBuckets
  /-- What has to be loaded in each tier: all but the loader of the tier. -/
  loadSequences : TierBuckets
  aliases : AliasTable
  apiVersions : FeatureTable
  extensions : FeatureTable
  /-- Requested extensions that the registry does not have. -/
  unknownExtensions : List String
  flavorMatched : Bool
  deriving DecidableEq

namespace Resolution

def enabledCount (r : Resolution) : Nat := r.tiers.size

def tierOf (r : Resolution) (name : String) : Option Tier :=
  Tier.all.find? fun t => name ∈ r.tiers.get t

def isEnabled (r : Resolution) (name : String) : Bool := (r.tierOf name).isSome

def enabled (r : Resolution) : NameSet := .ofList (r.tiers.toList.map (·.2))

def withoutDisabled (r : Resolution) : Resolution :=
  { r with
    apiVersions := { r.apiVersions with disabled := [] }
    extensions := { r.extensions with disabled := [] } }

end Resolution

namespace Request

def enablesVersion (q : Request) (f : Feature) : Bool :=
  q.version.admits f.version && f.supports q.flavor

def enablesExtension (q : Request) (f : Feature) : Bool :=
  q.extensions.selects f.name && f.supports q.flavor && !f.isDeprecated

end Request

namespace Registry

variable (R : Registry) (q : Request)

def enabledVersions : List Feature := R.features.apiVersions.filter q.enablesVersion

def enabledExtensions : List Feature := R.features.extensions.filter q.enablesExtension

def addsOf (fs : List Feature) : NameSet := fs.foldl (fun s f => s ∪ f.adds) ∅

def removesOf (fs : List Feature) : NameSet := fs.foldl (fun s f => s ∪ f.removes) ∅

/-- The names that a request enables: what API versions add and none of them removes, and what
extensions add. -/
def rawNames : NameSet :=
  let versions := R.enabledVersions q
  let kept := (addsOf versions).filter fun n => n ∉ removesOf versions
  kept ∪ addsOf (R.enabledExtensions q)

def unknownExtensions : List String :=
  match q.extensions with
  | .all => []
  | .named names => names.toList.filter fun n => (R.features.extension? n).isNone

/-- Refuses the first name without declaration that an enabled feature uses. Removes of extensions
are not used. -/
def checkEnabled : Except RegistryError Unit := do
  (R.enabledVersions q).forM (checkReferences R.catalog)
  (R.enabledExtensions q).forM fun f => requireAll R.catalog f.adds f.name

def aliasTable (entries : List EntryPoint) : AliasTable :=
  entries.foldl (fun t e => if e.isAlias then t.add e.canonical e.name else t) ∅

structure Listing where
  name : String
  tier : Tier

/-- The canonical names behind entry points. -/
def listings (entries : List EntryPoint) : Roster Listing.name :=
  .ofList (entries.map fun e => ⟨e.canonical, e.tier⟩)

def bucketsOf (ls : List Listing) : TierBuckets :=
  .ofTiers fun t => (ls.filter (·.tier = t)).map (·.name)

def resolve : Except RegistryError Resolution := do
  R.checkEnabled q
  let entries ← (R.rawNames q).toList.mapM fun n => R.catalog.require n n
  let listed := (listings entries).toList
  return {
    flavor := q.flavor
    requestedVersion := toString q.version
    tiers := bucketsOf listed
    loadSequences := bucketsOf (listed.filter fun l => !R.policy.isLoaderFor l.name l.tier)
    aliases := aliasTable entries
    apiVersions := .ofFeatures q.enablesVersion R.features.apiVersions
    extensions := .ofFeatures q.enablesExtension R.features.extensions
    unknownExtensions := R.unknownExtensions q
    flavorMatched := R.features.knowsFlavor q.flavor }

end Registry

end LoadTiers
