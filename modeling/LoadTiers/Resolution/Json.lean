import LoadTiers.Json.Pretty
import LoadTiers.Report

/-! # Resolutions as JSON

The JSON form of a resolution, of its parts and of the facts about it, and how to read it back.
-/

namespace LoadTiers

open Json

namespace Version

def toJson (v : Version) : Json := .str (toString v)

def ofJson? (j : Json) : Option Version := j.str?.bind ofText?

end Version

namespace Tier

def toJson (t : Tier) : Json := .str (toString t)

/-- Reads the name of a tier, which may also stand as the only member of an object, with `null`. -/
def ofJson? (j : Json) : Option Tier := do
  let name ← match j with
    | .str s => some s
    | .obj [(s, .null)] => some s
    | _ => none
  all.find? fun t => toString t == name

end Tier

namespace TierPolicy

def toJson (p : TierPolicy) : Json := .obj [
  ("global_entry_points", .strings p.globalEntryPoints.toList),
  ("scope_b_root", .str p.scopeBRoot),
  ("global_loader", .str p.globalLoader),
  ("scope_b_loader", .str p.scopeBLoader)]

/-- Reads a policy; a missing field is as it is for Vulkan. -/
def ofJson? (j : Json) : Option TierPolicy := do
  let field ← j.record?
    ["global_entry_points", "scope_b_root", "global_loader", "scope_b_loader"] 0
  return {
    globalEntryPoints := ← fieldD (field "global_entry_points")
      (fun j => j.strings?.map .ofList) vulkan.globalEntryPoints
    scopeBRoot := ← fieldD (field "scope_b_root") str? vulkan.scopeBRoot
    globalLoader := ← fieldD (field "global_loader") str? vulkan.globalLoader
    scopeBLoader := ← fieldD (field "scope_b_loader") str? vulkan.scopeBLoader }

end TierPolicy

namespace FeatureKind

def toJson : FeatureKind → Json
  | apiVersion => .obj [("kind", .str "api_version")]
  | extension deprecated supersededBy =>
    .obj ([("kind", .str "extension"), ("deprecated", .bool deprecated)] ++
      optionalMember "superseded_by" supersededBy)

def extensionOfJson? (j : Json) : Option FeatureKind := do
  let field ← j.record? ["deprecated", "superseded_by"] 1
  return extension (← (← field "deprecated").bool?)
    (← fieldD (field "superseded_by") (option? str?) none)

/-- Reads a kind: an object with its name among the members, or an array with its name in front. -/
def ofJson? : Json → Option FeatureKind
  | .obj members => do
    match ← (← members.lookup "kind").str? with
    | "api_version" => some apiVersion
    | "extension" => extensionOfJson? (.obj members)
    | _ => none
  | .arr (.str "api_version" :: []) => some apiVersion
  | .arr (.str "extension" :: fields) => extensionOfJson? (.arr fields)
  | _ => none

end FeatureKind

namespace TierBuckets

def toJson (b : TierBuckets) : Json := .obj [
  ("global", .strings b.global),
  ("scopeA", .strings b.scopeA),
  ("scopeB", .strings b.scopeB)]

def ofJson? (j : Json) : Option TierBuckets := do
  let field ← j.record? ["global", "scopeA", "scopeB"] 3
  return {
    global := ← (← field "global").strings?
    scopeA := ← (← field "scopeA").strings?
    scopeB := ← (← field "scopeB").strings? }

end TierBuckets

namespace FeatureSummary

/-- A feature as an object; its successor is left out where none is known. -/
def toJson (s : FeatureSummary) : Json := .obj
  ([("name", .str s.name), ("version", s.version.toJson), ("deprecated", .bool s.deprecated)] ++
    optionalMember "supersededBy" s.supersededBy)

/-- Reads a feature, which is not deprecated unless it says so. -/
def ofJson? (j : Json) : Option FeatureSummary := do
  let field ← j.record? ["name", "version", "deprecated", "supersededBy"] 2
  return {
    name := ← (← field "name").str?
    version := ← Version.ofJson? (← field "version")
    deprecated := ← fieldD (field "deprecated") bool? false
    supersededBy := ← fieldD (field "supersededBy") (option? str?) none }

end FeatureSummary

namespace FeatureTable

def toJson (t : FeatureTable) : Json := .obj [
  ("enabled", .arr (t.enabled.map (·.toJson))),
  ("disabled", .arr (t.disabled.map (·.toJson)))]

def ofJson? (j : Json) : Option FeatureTable := do
  let field ← j.record? ["enabled", "disabled"] 2
  return {
    enabled := ← (← field "enabled").list? FeatureSummary.ofJson?
    disabled := ← (← field "disabled").list? FeatureSummary.ofJson? }

end FeatureTable

namespace AliasTable

/-- The table as an object with a member for each canonical name. -/
def toJson (t : AliasTable) : Json :=
  .obj (t.toList.map fun group => (group.canonical, .strings group.aliases.toList))

/-- Reads the groups; the aliases of a group are put in order. -/
def ofJson? : Json → Option AliasTable
  | .obj members => do
    let groups ← members.mapM fun (canonical, aliases) => do
      return { canonical, aliases := .ofList (← aliases.strings?) : AliasGroup }
    return .ofList groups
  | _ => none

end AliasTable

namespace Resolution

def toJson (r : Resolution) : Json := .obj [
  ("flavor", .str r.flavor),
  ("requestedVersion", .str r.requestedVersion),
  ("tiers", r.tiers.toJson),
  ("loadSequences", r.loadSequences.toJson),
  ("aliases", AliasTable.toJson r.aliases),
  ("apiVersions", r.apiVersions.toJson),
  ("extensions", r.extensions.toJson),
  ("unknownExtensions", .strings r.unknownExtensions),
  ("flavorMatched", .bool r.flavorMatched)]

def ofJson? (j : Json) : Option Resolution := do
  let field ← j.record? ["flavor", "requestedVersion", "tiers", "loadSequences", "aliases",
    "apiVersions", "extensions", "unknownExtensions", "flavorMatched"] 9
  return {
    flavor := ← (← field "flavor").str?
    requestedVersion := ← (← field "requestedVersion").str?
    tiers := ← TierBuckets.ofJson? (← field "tiers")
    loadSequences := ← TierBuckets.ofJson? (← field "loadSequences")
    aliases := ← AliasTable.ofJson? (← field "aliases")
    apiVersions := ← FeatureTable.ofJson? (← field "apiVersions")
    extensions := ← FeatureTable.ofJson? (← field "extensions")
    unknownExtensions := ← (← field "unknownExtensions").strings?
    flavorMatched := ← (← field "flavorMatched").bool? }

end Resolution

namespace Facts

/-- Facts as an object; the time is left out where none is known. -/
def toJson (f : Facts) : Json := .obj
  ([("totalEntryPoints", .int f.totalEntryPoints.toNat),
    ("specVersion", .optional f.specVersion),
    ("sourceDigest", .optional f.sourceDigest),
    ("includeDisabled", .bool f.includeDisabled)] ++
    optionalMember "generatedAt" (f.generatedAt.map (·.text "Z")))

/-- Reads facts. In an object the texts may be missing. -/
def ofJson? (j : Json) : Option Facts := do
  let field ← j.record?
    ["totalEntryPoints", "specVersion", "sourceDigest", "includeDisabled", "generatedAt"] 4
  return {
    totalEntryPoints := ← (← field "totalEntryPoints").word?
    specVersion := ← fieldD (field "specVersion") (option? str?) none
    sourceDigest := ← fieldD (field "sourceDigest") (option? str?) none
    includeDisabled := ← (← field "includeDisabled").bool?
    generatedAt := ← fieldD (field "generatedAt")
      (option? fun j => j.str?.bind Timestamp.ofText?) none }

end Facts

end LoadTiers
