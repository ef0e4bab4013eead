import LoadTiers.Proofs.Resolution.Dependence

/-! # Feature tables

The tables of an answer part what is declared into what is enabled and what is not, in the order of
the features. The extensions that a request names are in the table or among the unknown ones.
-/

namespace LoadTiers

theorem eq_toList_of_perm {α : Type} {l : List α} {o : Option α} (h : l.Perm o.toList) :
    l = o.toList := by
  cases o with
  | none => exact h.eq_nil
  | some x => exact List.perm_singleton.mp h

/-- The order of API versions in a table: by version, and then by name. -/
def FeatureSummary.Before (s s' : FeatureSummary) : Prop :=
  s.version < s'.version ∨ s.version = s'.version ∧ s.name < s'.name

namespace FeatureTable

variable {t : FeatureTable} {declared : Roster Feature.name} {p : Feature → Bool}
  {fs : List Feature} {n : String}

/-- The table holds what is declared, each feature once and under its name, and in order. What the
condition enables is on its one side, and all the rest on the other. -/
structure Parts (t : FeatureTable) (declared : String → Option Feature)
    (before : FeatureSummary → FeatureSummary → Prop) (enables : Feature → Prop) : Prop where
  once : ∀ n, (t.enabled ++ t.disabled).filter (fun s => s.name == n) =
    ((declared n).map (·.summary)).toList
  enabled_iff : ∀ f, declared f.name = some f → (f.summary ∈ t.enabled ↔ enables f)
  disabled_iff : ∀ f, declared f.name = some f → (f.summary ∈ t.disabled ↔ ¬ enables f)
  enabled_pairwise : t.enabled.Pairwise before
  disabled_pairwise : t.disabled.Pairwise before

theorem perm_ofFeatures (p : Feature → Bool) (fs : List Feature) :
    ((ofFeatures p fs).enabled ++ (ofFeatures p fs).disabled).Perm (fs.map (·.summary)) := by
  have h : (fs.filter p ++ fs.filter fun f => !p f).Perm fs := by
    simpa using List.filter_append_perm p fs
  rw [ofFeatures, ← List.map_append]
  exact h.map _

theorem filter_name_ofFeatures (h : fs.Perm declared.toList) (n : String) :
    ((ofFeatures p fs).enabled ++ (ofFeatures p fs).disabled).filter (fun s => s.name == n) =
      ((declared.get? n).map (·.summary)).toList := by
  apply eq_toList_of_perm
  rw [Option.toList_map, ← Roster.filter_name_eq]
  refine (((perm_ofFeatures p fs).trans (h.map _)).filter _).trans ?_
  rw [List.filter_map]
  rfl

theorem mem_map_summary_filter (h : fs.Perm declared.toList) {f : Feature}
    (hf : declared.get? f.name = some f) : f.summary ∈ (fs.filter p).map (·.summary) ↔ p f := by
  have hm : ∀ g, g ∈ fs ↔ declared.get? g.name = some g := by
    intro g
    rw [h.mem_iff, Roster.get?_eq_some_iff, and_iff_left rfl]
  constructor
  · intro hs
    obtain ⟨g, hg, hgf⟩ := List.mem_map.mp hs
    obtain ⟨hg, hp⟩ := List.mem_filter.mp hg
    have hn : g.name = f.name := congrArg FeatureSummary.name hgf
    rw [hm, hn, hf, Option.some.injEq] at hg
    exact hg ▸ hp
  · intro hp
    exact List.mem_map_of_mem (List.mem_filter.mpr ⟨(hm f).mpr hf, hp⟩)

theorem parts_ofFeatures {before : FeatureSummary → FeatureSummary → Prop}
    {enables : Feature → Prop} (h : fs.Perm declared.toList)
    (ho : fs.Pairwise fun f g => before f.summary g.summary) (hp : ∀ f, p f ↔ enables f) :
    (ofFeatures p fs).Parts declared.get? before enables := by
  constructor
  · exact filter_name_ofFeatures h
  · intro f hf
    rw [← hp f]
    exact mem_map_summary_filter h hf
  · intro f hf
    rw [← hp f]
    refine (mem_map_summary_filter (p := fun f => !p f) h hf).trans ?_
    simp
  · exact List.pairwise_map.mpr (ho.filter p)
  · exact List.pairwise_map.mpr (ho.filter _)

theorem Parts.count_name {declared : String → Option Feature}
    {before : FeatureSummary → FeatureSummary → Prop} {enables : Feature → Prop}
    (h : t.Parts declared before enables) (n : String) :
    ((t.enabled ++ t.disabled).map (·.name)).count n = if (declared n).isSome then 1 else 0 := by
  rw [List.count_eq_length_filter, List.filter_map, List.length_map]
  change ((t.enabled ++ t.disabled).filter fun s => s.name == n).length = _
  rw [h.once]
  cases declared n <;> rfl

end FeatureTable

namespace Registry

variable {R : Registry} {q : Request} {n : String} {names : NameSet}

theorem before_of_precedes {f g : Feature} (hf : f.isExtension = false)
    (hg : g.isExtension = false) (h : f.Precedes g) : f.summary.Before g.summary := by
  cases h with
  | version _ _ h => exact .inl h
  | versionName _ _ h hn => exact .inr ⟨h, hn⟩
  | kind _ hk => exact absurd hk (by simp [hg])
  | extensionName hk => exact absurd hk (by simp [hf])

theorem parts_apiVersions (R : Registry) (q : Request) :
    (R.answer q).apiVersions.Parts R.features.apiVersion? FeatureSummary.Before
      fun f => q.version.admits f.version ∧ q.flavor ∈ f.flavors := by
  apply FeatureTable.parts_ofFeatures
  · exact List.mergeSort_perm _ _
  · refine R.features.apiVersions_pairwise.imp_of_mem fun hf hg h => ?_
    exact before_of_precedes (FeatureSet.isExtension_of_mem_apiVersions hf)
      (FeatureSet.isExtension_of_mem_apiVersions hg) h
  · intro f
    simp [Request.enablesVersion, Feature.supports]

theorem parts_extensions (R : Registry) (q : Request) :
    (R.answer q).extensions.Parts R.features.extension? (fun s s' => s.name < s'.name)
      fun f => q.extensions.selects f.name ∧ q.flavor ∈ f.flavors ∧ ¬ f.isDeprecated := by
  apply FeatureTable.parts_ofFeatures
  · exact List.Perm.refl _
  · exact R.features.extensionRoster.sorted
  · intro f
    simp [Request.enablesExtension, Feature.supports, and_assoc]

theorem unknownExtensions_pairwise (R : Registry) (q : Request) :
    (R.unknownExtensions q).Pairwise (· < ·) := by
  unfold unknownExtensions
  split
  · exact .nil
  · next names _ => exact names.sorted.filter _

theorem count_unknownExtensions (hq : q.extensions = .named names) (hn : n ∈ names) :
    (R.unknownExtensions q).count n = if (R.features.extension? n).isSome then 0 else 1 := by
  have hc : names.toList.count n = 1 := List.count_eq_one_of_mem names.nodup hn
  unfold unknownExtensions
  rw [hq]
  simp only
  split
  · next hs =>
    apply List.count_eq_zero.mpr
    intro hm
    rw [List.mem_filter, Option.isNone_iff_eq_none] at hm
    rw [hm.2] at hs
    cases hs
  · next hs =>
    rw [List.count_filter, hc]
    simpa using hs

theorem count_requested (hq : q.extensions = .named names) (hn : n ∈ names) :
    (((R.answer q).extensions.enabled ++ (R.answer q).extensions.disabled).map (·.name) ++
      (R.answer q).unknownExtensions).count n = 1 := by
  have hu : (R.answer q).unknownExtensions = R.unknownExtensions q := rfl
  rw [List.count_append, (parts_extensions R q).count_name, hu, count_unknownExtensions hq hn]
  split <;> rfl

section Unmatched

variable (h : (R.answer q).flavorMatched = false)
include h

theorem not_supports_of_unmatched :
    (∀ f ∈ R.features.apiVersions, ¬ q.enablesVersion f) ∧
      ∀ f ∈ R.features.extensions, ¬ q.enablesExtension f := by
  have hk : R.features.knowsFlavor q.flavor = false := h
  rw [FeatureSet.knowsFlavor, Bool.or_eq_false_iff, List.any_eq_false, List.any_eq_false] at hk
  constructor
  · intro f hf he
    rw [Request.enablesVersion, Bool.and_eq_true] at he
    exact hk.1 f (List.mem_mergeSort.mp hf) he.2
  · intro f hf he
    rw [Request.enablesExtension, Bool.and_eq_true, Bool.and_eq_true] at he
    exact hk.2 f hf he.1.2

theorem enabled_of_unmatched :
    (R.answer q).apiVersions.enabled = [] ∧ (R.answer q).extensions.enabled = [] := by
  obtain ⟨hv, hx⟩ := not_supports_of_unmatched h
  exact ⟨List.map_eq_nil_iff.mpr (List.filter_eq_nil_iff.mpr hv),
    List.map_eq_nil_iff.mpr (List.filter_eq_nil_iff.mpr hx)⟩

theorem rawEntries_of_unmatched : R.rawEntries q = [] := by
  obtain ⟨hv, hx⟩ := not_supports_of_unmatched h
  have hr : R.rawNames q = ∅ := by
    rw [rawNames, enabledVersions, enabledExtensions, List.filter_eq_nil_iff.mpr hv,
      List.filter_eq_nil_iff.mpr hx]
    rfl
  rw [rawEntries, hr]
  rfl

end Unmatched

/-- Each declared feature is in its table once, and enabled as the request says; tables are ordered
by version and name, or by name. A requested extension is enabled, disabled or unknown. Without a
feature of the flavor nothing is enabled or listed. -/
theorem tables_partition (R : Registry) (q : Request) (r : Resolution) (h : R.resolve q = .ok r) :
    r.apiVersions.Parts R.features.apiVersion? FeatureSummary.Before
      (fun f => q.version.admits f.version ∧ q.flavor ∈ f.flavors) ∧
    r.extensions.Parts R.features.extension? (fun s s' => s.name < s'.name)
      (fun f => q.extensions.selects f.name ∧ q.flavor ∈ f.flavors ∧ ¬ f.isDeprecated) ∧
    (∀ names, q.extensions = .named names → ∀ n ∈ names,
      ((r.extensions.enabled ++ r.extensions.disabled).map (·.name) ++
        r.unknownExtensions).count n = 1) ∧
    r.unknownExtensions.Pairwise (· < ·) ∧
    (r.flavorMatched = false → r.apiVersions.enabled = [] ∧ r.extensions.enabled = [] ∧
      (∀ t, r.tiers.get t = [] ∧ r.loadSequences.get t = []) ∧ r.aliases = ∅) := by
  obtain ⟨-, rfl⟩ := resolve_eq_ok_iff.mp h
  refine ⟨parts_apiVersions R q, parts_extensions R q, fun names hq n => count_requested hq,
    unknownExtensions_pairwise R q, fun hf => ?_⟩
  obtain ⟨hv, hx⟩ := enabled_of_unmatched hf
  have he := rawEntries_of_unmatched hf
  refine ⟨hv, hx, fun t => ?lists, ?aliases⟩
  case lists =>
    simp only [answer, he]
    cases t <;> exact ⟨rfl, rfl⟩
  case aliases =>
    rw [answer, he]
    rfl

def twinExtension : Feature :=
  { restoringExtension with name := "VK_VERSION_1_0", kind := .extension true none }

def twinFeatures : FeatureSet :=
  ((FeatureSet.insert ∅ deviceVersion).insert restoringExtension).insert twinExtension

def twinRequest : Request :=
  { extensions := .named (.ofList ["VK_KHR_device", "VK_KHR_lost", "VK_VERSION_1_0"]) }

/-- The deprecated extension is disabled, and the API version of its name is not. -/
theorem tables_twinFeatures :
    (deviceRegistry twinFeatures).resolve twinRequest =
      .ok ((deviceRegistry twinFeatures).answer twinRequest) ∧
    deviceVersion.summary ∈ ((deviceRegistry twinFeatures).answer twinRequest).apiVersions.enabled ∧
    twinExtension.summary ∈ ((deviceRegistry twinFeatures).answer twinRequest).extensions.disabled ∧
    (deviceRegistry twinFeatures).resolve { flavor := "openxr" } =
      .ok ((deviceRegistry twinFeatures).answer { flavor := "openxr" }) ∧
    ((deviceRegistry twinFeatures).answer { flavor := "openxr" }).flavorMatched = false ∧
    ((deviceRegistry twinFeatures).answer { flavor := "openxr" }).apiVersions.enabled = [] := by
  have hR : assemble deviceTypes deviceCommands twinFeatures .vulkan =
      .ok (deviceRegistry twinFeatures) := assemble_deviceRegistry (by decide)
  have h := resolve_of_assemble hR
  obtain ⟨hv, hx, -⟩ := tables_partition _ twinRequest _ (h _)
  obtain ⟨-, -, -, -, hn⟩ := tables_partition _ { flavor := "openxr" } _ (h _)
  refine ⟨h _, ?_, ?_, h _, by decide, (hn (by decide)).1⟩
  · exact (hv.enabled_iff deviceVersion (by decide)).mpr (by decide)
  · exact (hx.disabled_iff twinExtension (by decide)).mpr (by decide)

end Registry

end LoadTiers
