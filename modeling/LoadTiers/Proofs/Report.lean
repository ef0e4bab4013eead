import LoadTiers.Proofs.Resolution.Json
import LoadTiers.Report.Json
import LoadTiers.Report.Summary

/-! # Reading back reports

A JSON report holds the facts and the resolution that it was written for, the latter without its
disabled features if the facts say so. In that case no report depends on them.
-/

namespace LoadTiers.Report

open Json

def ofJson? (j : Json) : Option (Facts × Resolution) := do
  let field ← j.record? ["facts", "resolution"] 2
  return (← Facts.ofJson? (← field "facts"), ← Resolution.ofJson? (← field "resolution"))

theorem ofJson?_toJson (f : Facts) (r : Resolution) :
    ofJson? (toJson f r) = some (f, if f.includeDisabled then r else r.withoutDisabled) := by
  unfold ofJson? toJson
  rw [record?_obj, Option.bind_eq_bind, Option.bind_some]
  refine bind_member rfl (Facts.ofJson?_toJson f) ?_
  exact bind_member rfl (Resolution.ofJson?_toJson _) rfl

@[simp] theorem isWhole_toJson (f : Facts) (r : Resolution) : (toJson f r).isWhole := by
  simp [toJson, isWhole, haveWhole]

theorem ofText?_json (f : Facts) (r : Resolution) : ofText? (json f r) = some (toJson f r) :=
  ofText?_pretty (isWhole_toJson f r)

variable {f : Facts} {r r' : Resolution}

theorem tableLines_disabled (label : String) (t : FeatureTable) (l : List FeatureSummary) :
    tableLines label { t with disabled := l } false = tableLines label t false := by
  simp [tableLines]

theorem headLines_withoutDisabled (h : f.includeDisabled = false) :
    headLines f r.withoutDisabled = headLines f r := by
  simp only [headLines, h]
  simp only [Resolution.withoutDisabled, tableLines_disabled]
  rfl

theorem summary_withoutDisabled (h : f.includeDisabled = false) :
    summary f r.withoutDisabled = summary f r := by
  rw [summary, headLines_withoutDisabled h]
  rfl

theorem summary_eq_of_withoutDisabled (h : f.includeDisabled = false)
    (hr : r.withoutDisabled = r'.withoutDisabled) : summary f r = summary f r' := by
  rw [← summary_withoutDisabled h, hr, summary_withoutDisabled h]

theorem json_eq_of_withoutDisabled (h : f.includeDisabled = false)
    (hr : r.withoutDisabled = r'.withoutDisabled) : json f r = json f r' := by
  simp [json, toJson, h, hr]

/-- Serialized values are read as themselves. A report, of which some parser gives back the value
that was printed, holds its facts and the resolution, with the disabled features if the facts tell
so and without them otherwise. Without them the reports of two resolutions that differ in nothing
else are the same. -/
theorem decode_encode (parse : String → Option Json) :
    (∀ v : Version, Version.ofJson? v.toJson = some v) ∧
    (∀ t : Tier, Tier.ofJson? t.toJson = some t) ∧
    (∀ p : TierPolicy, TierPolicy.ofJson? p.toJson = some p) ∧
    (∀ k : FeatureKind, FeatureKind.ofJson? k.toJson = some k) ∧
    (∀ b : TierBuckets, TierBuckets.ofJson? b.toJson = some b) ∧
    (∀ s : FeatureSummary, FeatureSummary.ofJson? s.toJson = some s) ∧
    (∀ t : FeatureTable, FeatureTable.ofJson? t.toJson = some t) ∧
    (∀ r : Resolution, Resolution.ofJson? r.toJson = some r) ∧
    (∀ f : Facts, Facts.ofJson? f.toJson = some f) ∧
    (∀ f r, parse (json f r) = some (toJson f r) →
      (f.includeDisabled = true → (parse (json f r)).bind ofJson? = some (f, r)) ∧
      (f.includeDisabled = false →
        (parse (json f r)).bind ofJson? = some (f, { r with
          apiVersions := { r.apiVersions with disabled := [] }
          extensions := { r.extensions with disabled := [] } }))) ∧
    ∀ f r r', f.includeDisabled = false → r.withoutDisabled = r'.withoutDisabled →
      json f r = json f r' ∧ summary f r = summary f r' := by
  refine ⟨Version.ofJson?_toJson, Tier.ofJson?_toJson, TierPolicy.ofJson?_toJson,
    FeatureKind.ofJson?_toJson, TierBuckets.ofJson?_toJson, FeatureSummary.ofJson?_toJson,
    FeatureTable.ofJson?_toJson, Resolution.ofJson?_toJson, Facts.ofJson?_toJson, ?_, ?_⟩
  · intro f r hparse
    rw [hparse, Option.bind_some, ofJson?_toJson]
    constructor
    · intro h
      rw [if_pos h]
    · intro h
      rw [h, if_neg Bool.false_ne_true, Resolution.withoutDisabled]
  · intro f r r' h hr
    exact ⟨json_eq_of_withoutDisabled h hr, summary_eq_of_withoutDisabled h hr⟩

def briefFacts : Facts where
  totalEntryPoints := 1
  specVersion := some "1.3.250"
  sourceDigest := none
  includeDisabled := false
  generatedAt := none

def drainResolution : Resolution where
  flavor := "vulkan"
  requestedVersion := "latest"
  tiers := { scopeB := ["vkQueueWaitIdle"] }
  loadSequences := { scopeB := ["vkQueueWaitIdle"] }
  aliases := .ofList [⟨"vkQueueWaitIdle", .ofList ["vkQueueDrain"]⟩]
  apiVersions := { enabled := [{ name := "VK_VERSION_1_0", version := ⟨1, 0⟩ }] }
  extensions := { disabled := [⟨"VK_EXT_drain", ⟨1, 0⟩, true, some "VK_KHR_drain"⟩] }
  unknownExtensions := []
  flavorMatched := true

theorem decode_encode_brief :
    ofText? (json briefFacts drainResolution) = some (toJson briefFacts drainResolution) ∧
    (ofText? (json briefFacts drainResolution)).bind ofJson? = some (briefFacts,
      { drainResolution with extensions := {} }) ∧
    (ofText? (json { briefFacts with includeDisabled := true } drainResolution)).bind ofJson? =
      some ({ briefFacts with includeDisabled := true }, drainResolution) ∧
    json briefFacts drainResolution = json briefFacts { drainResolution with extensions := {} } ∧
    summary briefFacts drainResolution =
      summary briefFacts { drainResolution with extensions := {} } := by
  have hparse := ofText?_json briefFacts drainResolution
  have hfull := ofText?_json { briefFacts with includeDisabled := true } drainResolution
  obtain ⟨-, -, -, -, -, -, -, -, -, hreport, hsame⟩ := decode_encode ofText?
  exact ⟨hparse, (hreport _ _ hparse).2 rfl, (hreport _ _ hfull).1 rfl, hsame _ _ _ rfl rfl⟩

end LoadTiers.Report
