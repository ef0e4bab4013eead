import LoadTiers.Proofs.Resolution.Removed

/-! # Ceilings on the API version

A higher ceiling enables more API versions. It loses a name only to an API version that the lower
one kept out, and then only if no extension adds the name.
-/

namespace LoadTiers

namespace VersionRequest

variable {u v : Version} {w : VersionRequest}

theorem admits_upTo : (upTo v).admits u ↔ u ≤ v := by
  simp [admits]

theorem admits_trans (hv : w.admits v) (hu : (upTo v).admits u) : w.admits u := by
  cases w with
  | latest => rfl
  | upTo c =>
    rw [admits_upTo] at *
    exact Version.le_trans hu hv

end VersionRequest

namespace Registry

variable {R : Registry} {flavor : String} {selection : ExtensionSelection} {v : Version}
  {w : VersionRequest} {n : String}

theorem versionSet_mono (h : w.admits v) :
    R.versionSet ⟨flavor, .upTo v, selection⟩ ⊆ R.versionSet ⟨flavor, w, selection⟩ := by
  rintro f ⟨hf, ha, hs⟩
  exact ⟨hf, VersionRequest.admits_trans h ha, hs⟩

theorem mem_enabled_apiVersions {q : Request} {s : FeatureSummary} :
    s ∈ (R.answer q).apiVersions.enabled ↔ ∃ f ∈ R.versionSet q, f.summary = s := by
  simp only [← mem_enabledVersions]
  exact List.mem_map

theorem apiVersions_enabled_mono (h : w.admits v) {s : FeatureSummary}
    (hs : s ∈ (R.answer ⟨flavor, .upTo v, selection⟩).apiVersions.enabled) :
    s ∈ (R.answer ⟨flavor, w, selection⟩).apiVersions.enabled := by
  rw [mem_enabled_apiVersions] at *
  obtain ⟨f, hf, rfl⟩ := hs
  exact ⟨f, versionSet_mono h hf, rfl⟩

/-- A name that is lost under a higher ceiling was added by an API version, which stays enabled. So
another one removes it, and that one was not enabled before. -/
theorem exists_removal_of_lost (h : w.admits v)
    (hn : n ∈ R.rawSet ⟨flavor, .upTo v, selection⟩) (hw : n ∉ R.rawSet ⟨flavor, w, selection⟩) :
    ∃ f, R.features.apiVersion? f.name = some f ∧ flavor ∈ f.flavors ∧ v < f.version ∧
      w.admits f.version ∧ n ∈ f.removes := by
  rcases mem_rawSet_iff.mp hn with ⟨⟨g, hg, hga⟩, hk⟩ | hx
  · by_contra hne
    apply hw
    refine mem_rawSet_iff.mpr (.inl ⟨⟨g, versionSet_mono h hg, hga⟩, ?_⟩)
    rintro f ⟨hf, ha, hs⟩ hr
    by_cases hv : f.version ≤ v
    · exact hk f ⟨hf, VersionRequest.admits_upTo.mpr hv, hs⟩ hr
    · exact hne ⟨f, hf, hs, Version.not_le.mp hv, ha, hr⟩
  · have hn' : n ∈ R.rawSet ⟨flavor, w, selection⟩ := mem_rawSet_iff.mpr (.inr hx)
    exact absurd hn' hw

theorem answer_latest (h : ∀ f, R.features.apiVersion? f.name = some f → f.version ≤ v) :
    R.answer ⟨flavor, .latest, selection⟩ =
      { R.answer ⟨flavor, .upTo v, selection⟩ with requestedVersion := "latest" } := by
  change _ = { R.answer _ with requestedVersion := toString VersionRequest.latest }
  apply answer_congr
  · intro f hf
    have ha : (VersionRequest.upTo v).admits f.version :=
      VersionRequest.admits_upTo.mpr (h f (FeatureSet.mem_apiVersions.mp hf))
    simp only [Request.enablesVersion, ha]
    rfl
  · exact fun _ _ => rfl
  · rfl
  · rfl

/-- A higher ceiling keeps the enabled API versions, and the tiers of what stays enabled. What it
loses goes name by name to the removes of the API versions that it adds. Without a ceiling the
answer is that of any ceiling above all API versions. -/
theorem resolve_raised (types : TypeGraph) (ds : List Declaration) (fs : FeatureSet)
    (policy : TierPolicy) (R : Registry) (h : assemble types ds fs policy = .ok R)
    (flavor : String) (selection : ExtensionSelection) :
    ∃ r : VersionRequest → Resolution, (∀ w, R.resolve ⟨flavor, w, selection⟩ = .ok (r w)) ∧
      (∀ (v : Version) (w : VersionRequest), w.admits v →
        (∀ s ∈ (r (.upTo v)).apiVersions.enabled, s ∈ (r w).apiVersions.enabled) ∧
        (∀ c t, c ∈ (r (.upTo v)).tiers.get t → (∀ t', c ∉ (r w).tiers.get t') →
          ∀ n ∈ R.rawNames ⟨flavor, .upTo v, selection⟩, R.catalog.Names c n →
            ∃ f, R.features.apiVersion? f.name = some f ∧ flavor ∈ f.flavors ∧ v < f.version ∧
              w.admits f.version ∧ n ∈ f.removes) ∧
        (∀ c t t', c ∈ (r (.upTo v)).tiers.get t → c ∈ (r w).tiers.get t' → t = t')) ∧
      ∀ v, (∀ f, R.features.apiVersion? f.name = some f → f.version ≤ v) →
        r .latest = { r (.upTo v) with requestedVersion := "latest" } := by
  obtain ⟨-, -, hb⟩ := build_of_assemble h
  have hc := Catalog.coherent_of_build hb
  refine ⟨fun w => R.answer ⟨flavor, w, selection⟩, fun w => resolve_of_assemble h _, ?_,
    fun v => answer_latest⟩
  intro v w hvw
  refine ⟨fun s => apiVersions_enabled_mono hvw, ?_, fun c t t' => tier_eq_of_mem_get_tiers hc⟩
  intro c t _ hw n hn hcn
  apply exists_removal_of_lost hvw (mem_rawNames.mp hn)
  intro hn'
  obtain ⟨t', ht'⟩ := mem_tiers_answer.mpr ⟨n, hn', hcn⟩
  exact hw t' ht'

theorem not_mem_rawSet_latest (n : String) : n ∉ (deviceRegistry removalFeatures).rawSet {} := by
  have hr : ∀ v ∈ removalFeatures.versions.toList, ∀ m ∈ v.adds.toList,
      ∃ v' ∈ removalFeatures.versions.toList, Request.enablesVersion {} v' ∧ m ∈ v'.removes := by
    decide
  rw [mem_rawSet_iff]
  rintro (⟨⟨v, hv, hn⟩, hk⟩ | ⟨x, hx, -⟩)
  · obtain ⟨v', hm, he, hn'⟩ := hr v (mem_versionSet_iff.mp hv).1 n hn
    exact hk v' (mem_versionSet_iff.mpr ⟨hm, he⟩) hn'
  · exact not_mem_extensionSet_removalFeatures _ x hx

/-- The command that its alias keeps under the ceiling 1.1 is lost to a later removal of the
alias. -/
theorem resolve_removalFeatures :
    assemble deviceTypes deviceCommands removalFeatures .vulkan =
      .ok (deviceRegistry removalFeatures) ∧
    VersionRequest.latest.admits ⟨1, 1⟩ ∧
    ∃ r : VersionRequest → Resolution,
      (∀ w, (deviceRegistry removalFeatures).resolve ⟨"vulkan", w, .all⟩ = .ok (r w)) ∧
      (∃ t, "vkDestroyDevice" ∈ (r (.upTo ⟨1, 1⟩)).tiers.get t) ∧
      (∀ t, "vkDestroyDevice" ∉ (r .latest).tiers.get t) ∧
      (∃ f, (deviceRegistry removalFeatures).features.apiVersion? f.name = some f ∧
        "vulkan" ∈ f.flavors ∧ ⟨1, 1⟩ < f.version ∧ VersionRequest.latest.admits f.version ∧
        "vkDestroyDeviceKHR" ∈ f.removes) ∧
      r .latest = { r (.upTo ⟨1, 2⟩) with requestedVersion := "latest" } := by
  have h := assemble_removalFeatures
  obtain ⟨r, hr, hraise, hlatest⟩ := resolve_raised _ _ _ _ _ h "vulkan" .all
  obtain ⟨-, hlost, -⟩ := hraise ⟨1, 1⟩ .latest rfl
  have hk : (deviceRegistry removalFeatures).catalog.Names "vkDestroyDevice" "vkDestroyDeviceKHR" :=
    ⟨_, rfl, rfl⟩
  have hv : ∃ t, "vkDestroyDevice" ∈ (r (.upTo ⟨1, 1⟩)).tiers.get t := by
    rw [← (resolve_eq_ok_iff.mp (hr _)).2]
    exact mem_tiers_answer.mpr ⟨_, mem_rawSet_removalFeatures, hk⟩
  have hl : ∀ t, "vkDestroyDevice" ∉ (r .latest).tiers.get t := by
    intro t ht
    rw [← (resolve_eq_ok_iff.mp (hr _)).2] at ht
    obtain ⟨n, hn, -⟩ := exists_of_mem_get_tiers ht
    exact not_mem_rawSet_latest n hn
  have hall : ∀ f ∈ removalFeatures.versions.toList, f.version ≤ ⟨1, 2⟩ := by decide
  obtain ⟨t, ht⟩ := hv
  refine ⟨h, rfl, r, hr, ⟨t, ht⟩, hl, ?_, ?_⟩
  · exact hlost _ t ht hl _ (mem_rawNames.mpr mem_rawSet_removalFeatures) hk
  · exact hlatest _ fun f hf => hall f (Roster.get?_eq_some_iff.mp hf).1

end Registry

end LoadTiers
