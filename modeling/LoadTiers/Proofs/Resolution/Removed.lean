import LoadTiers.Proofs.Resolution.Dependence

/-! # Removed entry points

API versions remove names, not entry points. What they remove is taken from the names that they add
before aliases are followed, so that an alias that is left keeps its entry point.
-/

namespace LoadTiers.Registry

/-- Without help from extensions an entry point whose own name is removed lives on through an alias
that is added and not removed itself, and only so. -/
theorem isEnabled_iff_of_removed (types : TypeGraph) (ds : List Declaration) (fs : FeatureSet)
    (policy : TierPolicy) (R : Registry) (h : assemble types ds fs policy = .ok R) (q : Request)
    (c : String) (hr : ∃ v ∈ R.versionSet q, c ∈ v.removes)
    (hx : ∀ x ∈ R.extensionSet q, ∀ n ∈ x.adds, ¬ R.catalog.Names c n) :
    ∃ r, R.resolve q = .ok r ∧ (r.isEnabled c ↔ ∃ t, c ∈ r.tiers.get t) ∧
      (r.isEnabled c ↔ ∃ n e, R.catalog.get? n = some e ∧ e.isAlias ∧ e.canonical = c ∧
        (∃ v ∈ R.versionSet q, n ∈ v.adds) ∧ ∀ v ∈ R.versionSet q, n ∉ v.removes) := by
  obtain ⟨-, -, hb⟩ := build_of_assemble h
  have hc := Catalog.coherent_of_build hb
  refine ⟨R.answer q, resolve_of_assemble h q, Resolution.isEnabled_iff, ?_⟩
  rw [isEnabled_answer_iff]
  constructor
  · rintro ⟨n, hn, e, he, rfl⟩
    rcases mem_rawSet_iff.mp hn with ⟨ha, hk⟩ | ⟨x, hxe, hxn⟩
    · have hne : e.canonical ≠ n := by
        intro hen
        obtain ⟨v, hv, hcv⟩ := hr
        exact hk v hv (hen ▸ hcv)
      have hal : e.isAlias := by
        by_contra hal
        exact hne ((hc.canonical_eq_iff n e he).mpr hal)
      exact ⟨n, e, he, hal, rfl, ha, hk⟩
    · exact absurd ⟨e, he, rfl⟩ (hx x hxe n hxn)
  · rintro ⟨n, e, he, -, hec, ha, hk⟩
    exact ⟨n, mem_rawSet_iff.mpr (.inl ⟨ha, hk⟩), e, he, hec⟩

def twoNameVersion : Feature :=
  { deviceVersion with adds := .ofList ["vkDestroyDevice", "vkDestroyDeviceKHR"] }

def canonicalRemoval : Feature where
  name := "VK_VERSION_1_1"
  kind := .apiVersion
  version := ⟨1, 1⟩
  flavors := .ofList ["vulkan"]
  removes := .ofList ["vkDestroyDevice"]

def aliasRemoval : Feature where
  name := "VK_VERSION_1_2"
  kind := .apiVersion
  version := ⟨1, 2⟩
  flavors := .ofList ["vulkan"]
  removes := .ofList ["vkDestroyDeviceKHR"]

def removalFeatures : FeatureSet :=
  ((FeatureSet.insert ∅ twoNameVersion).insert canonicalRemoval).insert aliasRemoval

theorem assemble_removalFeatures : assemble deviceTypes deviceCommands removalFeatures .vulkan =
    .ok (deviceRegistry removalFeatures) :=
  assemble_deviceRegistry (by decide)

theorem not_mem_extensionSet_removalFeatures (q : Request) (x : Feature) :
    x ∉ (deviceRegistry removalFeatures).extensionSet q := by
  intro hx
  cases (mem_extensionSet_iff.mp hx).1

/-- With both of its names removed the command is in no tier. -/
theorem not_isEnabled_removalFeatures :
    assemble deviceTypes deviceCommands removalFeatures .vulkan =
      .ok (deviceRegistry removalFeatures) ∧
    canonicalRemoval ∈ (deviceRegistry removalFeatures).versionSet {} ∧
    "vkDestroyDevice" ∈ canonicalRemoval.removes ∧
    ∃ r, (deviceRegistry removalFeatures).resolve {} = .ok r ∧ ¬ r.isEnabled "vkDestroyDevice" ∧
      ∀ t, "vkDestroyDevice" ∉ r.tiers.get t := by
  have h := assemble_removalFeatures
  have hv : canonicalRemoval ∈ (deviceRegistry removalFeatures).versionSet {} :=
    mem_versionSet_iff.mpr (by decide)
  have ha : aliasRemoval ∈ (deviceRegistry removalFeatures).versionSet {} :=
    mem_versionSet_iff.mpr (by decide)
  obtain ⟨r, hr, ht, hi⟩ := isEnabled_iff_of_removed _ _ _ _ _ h {} "vkDestroyDevice"
    ⟨_, hv, by decide⟩ fun x hx => absurd hx (not_mem_extensionSet_removalFeatures _ x)
  have hn : ¬ r.isEnabled "vkDestroyDevice" := by
    rw [hi]
    rintro ⟨n, e, he, hal, -, -, hk⟩
    obtain ⟨hm, rfl⟩ := Roster.get?_eq_some_iff.mp he
    obtain ⟨d, hd, rfl⟩ := List.mem_map.mp (Roster.mem_of_mem_ofList hm)
    -- the alias is the only name that is left, and the last version removes it
    rcases List.mem_cons.mp hd with rfl | hd
    · exact hk _ ha (by decide)
    · cases List.mem_singleton.mp hd
      cases hal
  exact ⟨h, hv, by decide, r, hr, hn, fun t hm => hn (ht.mpr ⟨t, hm⟩)⟩

theorem mem_rawSet_removalFeatures : "vkDestroyDeviceKHR" ∈
    (deviceRegistry removalFeatures).rawSet { version := .upTo ⟨1, 1⟩ } := by
  have hk : ∀ v ∈ removalFeatures.versions.toList,
      Request.enablesVersion { version := .upTo ⟨1, 1⟩ } v → "vkDestroyDeviceKHR" ∉ v.removes := by
    decide
  refine mem_rawSet_iff.mpr (.inl ⟨?_, ?_⟩)
  · exact ⟨twoNameVersion, mem_versionSet_iff.mpr (by decide), by decide⟩
  · intro v hv
    obtain ⟨hm, he⟩ := mem_versionSet_iff.mp hv
    exact hk v hm he

/-- Up to the second version the alias keeps the command, whose canonical name is removed. -/
theorem isEnabled_removalFeatures :
    assemble deviceTypes deviceCommands removalFeatures .vulkan =
      .ok (deviceRegistry removalFeatures) ∧
    canonicalRemoval ∈ (deviceRegistry removalFeatures).versionSet { version := .upTo ⟨1, 1⟩ } ∧
    "vkDestroyDevice" ∈ canonicalRemoval.removes ∧
    (∀ x ∈ (deviceRegistry removalFeatures).extensionSet { version := .upTo ⟨1, 1⟩ },
      ∀ n ∈ x.adds, ¬ (deviceRegistry removalFeatures).catalog.Names "vkDestroyDevice" n) ∧
    ∃ r, (deviceRegistry removalFeatures).resolve { version := .upTo ⟨1, 1⟩ } = .ok r ∧
      r.isEnabled "vkDestroyDevice" := by
  have h := assemble_removalFeatures
  refine ⟨h, mem_versionSet_iff.mpr (by decide), by decide, ?_, _, resolve_of_assemble h _, ?_⟩
  · intro x hx
    exact absurd hx (not_mem_extensionSet_removalFeatures _ x)
  · exact isEnabled_answer_iff.mpr ⟨_, mem_rawSet_removalFeatures, _, rfl, rfl⟩

end LoadTiers.Registry
