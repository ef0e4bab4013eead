import LoadTiers.Digest
import LoadTiers.Resolution
import LoadTiers.Timestamp.Text

/-! # Reports

A report is a resolution with some facts about how it came about.
-/

namespace LoadTiers

structure Facts where
  totalEntryPoints : UInt64
  specVersion : Option String
  sourceDigest : Option String
  includeDisabled : Bool
  generatedAt : Option Timestamp
  deriving DecidableEq

/-- The facts as far as they follow from a registry and its resolution. -/
def Facts.derive (R : Registry) (r : Resolution) : Facts where
  totalEntryPoints := .ofNat r.enabledCount
  specVersion := R.specVersion
  sourceDigest := R.sourceDigest
  includeDisabled := true
  generatedAt := none

end LoadTiers
