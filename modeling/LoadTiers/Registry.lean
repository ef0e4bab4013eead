import LoadTiers.Catalog
import LoadTiers.Feature

/-! # Registries

A registry is assembled from its types, declarations and features. Assembly refuses cyclic types,
alias chains that lead nowhere, and features that use names without declaration, in this order.
-/

namespace LoadTiers

structure Registry where
  types : TypeGraph
  catalog : Catalog
  features : FeatureSet
  policy : TierPolicy
  /-- The number of the header that the registry describes. -/
  specVersion : Option String := none
  sourceDigest : Option String := none

namespace Registry

def requireAll (catalog : Catalog) (names : NameSet) (referrer : String) :
    Except RegistryError Unit :=
  names.toList.forM fun name => discard (catalog.require name referrer)

/-- Refuses a feature that uses a name without declaration, first in its adds, then in its
removes. -/
def checkReferences (catalog : Catalog) (f : Feature) : Except RegistryError Unit := do
  requireAll catalog f.adds f.name
  requireAll catalog f.removes f.name

def assemble (types : TypeGraph) (declarations : List Declaration) (features : FeatureSet)
    (policy : TierPolicy) : Except RegistryError Registry := do
  types.checkAcyclic
  let catalog ← Catalog.build declarations types policy
  (features.apiVersions ++ features.extensions).forM (checkReferences catalog)
  return { types, catalog, features, policy }

end Registry

end LoadTiers
