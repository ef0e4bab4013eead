import LoadTiers.Report

/-! # Reports for people

A report as lines of text, with one entry point on a line.
-/

namespace LoadTiers.Report

def commas (l : List String) : String := String.intercalate ", " l

/-- The line of a disabled feature; the successor of one that is not deprecated is not told. -/
def disabledLine (s : FeatureSummary) : String :=
  match s.deprecated, s.supersededBy with
  | true, some successor => s!"    - {s.name} (deprecated, use {successor})"
  | true, none => s!"    - {s.name} (deprecated)"
  | false, _ => s!"    - {s.name}"

def tableLines (label : String) (t : FeatureTable) (includeDisabled : Bool) : List String :=
  s!"  {label} enabled ({t.enabled.length}): {commas (t.enabled.map (·.name))}" ::
    if includeDisabled ∧ t.disabled ≠ [] then
      s!"  {label} disabled ({t.disabled.length}):" :: t.disabled.map disabledLine
    else []

/-- The line of an entry point: it says whether the entry point loads the tier, and which aliases
enabled it. -/
def entryLine (r : Resolution) (t : Tier) (name : String) : String :=
  let marker := if name ∈ r.loadSequences.get t then "" else " (loader)"
  match r.aliases.get? name with
  | some group => s!"    {name}{marker} <- {commas group.aliases.toList}"
  | none => s!"    {name}{marker}"

def tierTitle (r : Resolution) (t : Tier) : String := s!"  [{t}] ({(r.tiers.get t).length})"

def tierLines (r : Resolution) (t : Tier) : List String :=
  tierTitle r t :: (r.tiers.get t).map (entryLine r t)

def optionalLine (label : String) : Option String → List String
  | some s => [s!"  {label}: {s}"]
  | none => []

def headLines (f : Facts) (r : Resolution) : List String :=
  [s!"vkfl resolve --flavor {r.flavor} --api {r.requestedVersion}"] ++
    optionalLine "Header version" f.specVersion ++
    optionalLine "Source" f.sourceDigest ++
    optionalLine "Generated" (f.generatedAt.map (·.text "+00:00")) ++
    [s!"  Entry points: {f.totalEntryPoints}"] ++
    tableLines "API versions" r.apiVersions f.includeDisabled ++
    tableLines "Extensions" r.extensions f.includeDisabled ++
    optionalLine "Unknown extensions"
      (if r.unknownExtensions = [] then none else some (commas r.unknownExtensions))

def unlines (l : List String) : String := String.join (l.map (· ++ "\n"))

def summary (f : Facts) (r : Resolution) : String :=
  unlines (headLines f r ++ Tier.all.flatMap (tierLines r))

end LoadTiers.Report
