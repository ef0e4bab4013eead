import LoadTiers.Registry
import LoadTiers.Resolution.Json

/-! # Classifications

What a registry tells about names of entry points, as JSON and line by line.
-/

namespace LoadTiers.Classification

/-- What is told about an entry point that was asked for by `name`. -/
def row (R : Registry) (name : String) (e : EntryPoint) : Json := .obj [
  ("canonical", .str e.canonical),
  ("loader", .bool (R.policy.isLoaderFor e.canonical e.tier)),
  ("name", .str name),
  ("ownerType", .optional e.ownerType),
  ("tier", e.tier.toJson)]

def unknown (R : Registry) (names : List String) : List String :=
  names.filter fun name => (R.catalog.get? name).isNone

def toJson (R : Registry) (path : String) (names : List String) : Json := .obj [
  ("entryPoints", .arr (names.filterMap fun name => (R.catalog.get? name).map (row R name))),
  ("registry", .str path),
  ("unknown", .strings (unknown R names))]

def line (R : Registry) (name : String) : String :=
  match R.catalog.get? name with
  | some e =>
    if e.isAlias then s!"{name}: {e.tier} (alias of {e.canonical})" else s!"{name}: {e.tier}"
  | none => s!"{name}: unknown"

end LoadTiers.Classification
