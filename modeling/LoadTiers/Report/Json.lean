import LoadTiers.Resolution.Json

/-! # Reports as JSON -/

namespace LoadTiers.Report

def toJson (f : Facts) (r : Resolution) : Json := .obj [
  ("facts", f.toJson),
  ("resolution", (if f.includeDisabled then r else r.withoutDisabled).toJson)]

def json (f : Facts) (r : Resolution) : String := (toJson f r).pretty

end LoadTiers.Report
