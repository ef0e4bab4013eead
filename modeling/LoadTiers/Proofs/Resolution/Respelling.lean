import LoadTiers.Proofs.Related
import LoadTiers.Proofs.Resolution.Disabled
import LoadTiers.Proofs.Resolution.Loading

/-! # Respelled extensions

Extensions can add an entry point by any of its names, and by several of them. A registry in which
they add it by other names lists the same entry points in the same tiers and differs in its alias
groups only.
-/

namespace LoadTiers

theorem eq_of_pairwise_of_mem_iff {l l' : List String} (hl : l.Pairwise (· < ·))
    (hl' : l'.Pairwise (· < ·)) (h : ∀ n, n ∈ l ↔ n ∈ l') : l = l' := by
  have hr : (⟨l, hl⟩ : NameSet) = ⟨l', hl'⟩ := NameSet.ext h
  exact congrArg Roster.toList hr

theorem TierBuckets.ext_get {b b' : TierBuckets} (h : ∀ t, b.get t = b'.get t) : b = b' := by
  obtain ⟨g, s, s'⟩ := b
  cases h .global
  cases h .scopeA
  cases h .scopeB
  rfl

/-- Both names have entries with one canonical name. -/
def Catalog.Synonyms (catalog : Catalog) (n n' : String) : Prop :=
  ∃ c, catalog.Names c n ∧ catalog.Names c n'

/-- The features are the same but for the names by which they add entry points. -/
structure Feature.Respells (catalog : Catalog) (f f' : Feature) : Prop where
  rest : f' = { f with adds := f'.adds }
  replaced : ∀ n ∈ f.adds, ∃ n' ∈ f'.adds, catalog.Synonyms n n'
  replacing : ∀ n' ∈ f'.adds, ∃ n ∈ f.adds, catalog.Synonyms n n'

/-- The API versions are the same, and the extensions are the same but for respelled adds. -/
structure FeatureSet.Respells (catalog : Catalog) (fs fs' : FeatureSet) : Prop where
  versions : fs'.versions = fs.versions
  extensions : List.Forall₂ (Feature.Respells catalog) fs.extensions fs'.extensions

namespace Catalog

variable {catalog : Catalog} {n n' c : String}

theorem Names.contains (h : catalog.Names c n) : catalog.contains n := by
  obtain ⟨e, he, -⟩ := h
  rw [Roster.contains, he]
  rfl

theorem Synonyms.symm (h : catalog.Synonyms n n') : catalog.Synonyms n' n := by
  obtain ⟨c, hn, hn'⟩ := h
  exact ⟨c, hn', hn⟩

theorem Names.trans (h : catalog.Names c n) (hs : catalog.Synonyms n n') :
    catalog.Names c n' := by
  obtain ⟨e, he, rfl⟩ := h
  obtain ⟨c, ⟨e', he', rfl⟩, hn'⟩ := hs
  rw [he, Option.some.injEq] at he'
  exact he' ▸ hn'

end Catalog

namespace Feature

variable {catalog : Catalog} {f f' : Feature} {q : Request} {c : String}

def dropAdds (f : Feature) : Feature := { f with adds := ∅ }

theorem Respells.dropAdds_eq (h : f.Respells catalog f') : f.dropAdds = f'.dropAdds := by
  rw [h.rest]
  rfl

theorem Respells.names_iff (h : f.Respells catalog f') :
    (∃ n ∈ f.adds, catalog.Names c n) ↔ ∃ n ∈ f'.adds, catalog.Names c n := by
  constructor
  · rintro ⟨n, hn, hc⟩
    obtain ⟨n', hn', hs⟩ := h.replaced n hn
    exact ⟨n', hn', hc.trans hs⟩
  · rintro ⟨n', hn', hc⟩
    obtain ⟨n, hn, hs⟩ := h.replacing n' hn'
    exact ⟨n, hn, hc.trans hs.symm⟩

theorem Respells.symm (h : f.Respells catalog f') : f'.Respells catalog f := by
  constructor
  · rw [h.rest]
  · intro n hn
    obtain ⟨n', hn', hs⟩ := h.replacing n hn
    exact ⟨n', hn', hs.symm⟩
  · intro n hn
    obtain ⟨n', hn', hs⟩ := h.replaced n hn
    exact ⟨n', hn', hs.symm⟩

theorem ofFeatures_dropAdds (fs : List Feature) :
    FeatureTable.ofFeatures q.enablesExtension (fs.map dropAdds) =
      FeatureTable.ofFeatures q.enablesExtension fs := by
  simp only [FeatureTable.ofFeatures, List.filter_map, List.map_map]
  rfl

end Feature

namespace FeatureSet

variable {catalog : Catalog} {fs fs' : FeatureSet} {f : Feature} {n : String}

theorem Respells.exists_of_mem (h : fs.Respells catalog fs') (hf : f ∈ fs.extensions) :
    ∃ f' ∈ fs'.extensions, f.Respells catalog f' :=
  exists_of_mem_forall₂ h.extensions hf

theorem Respells.symm (h : fs.Respells catalog fs') : fs'.Respells catalog fs := by
  constructor
  · exact h.versions.symm
  · exact List.Forall₂.flip (h.extensions.imp fun _ _ => Feature.Respells.symm)

theorem Respells.map_dropAdds (h : fs.Respells catalog fs') :
    fs.extensions.map Feature.dropAdds = fs'.extensions.map Feature.dropAdds :=
  map_eq_map_of_forall₂ h.extensions fun _ _ => Feature.Respells.dropAdds_eq

theorem extension?_dropAdds (fs : FeatureSet) (n : String) :
    (fs.extension? n).map Feature.dropAdds =
      (fs.extensions.map Feature.dropAdds).find? fun f => f.name == n := by
  rw [List.find?_map]
  rfl

theorem Respells.isNone_extension? (h : fs.Respells catalog fs') (n : String) :
    (fs'.extension? n).isNone = (fs.extension? n).isNone := by
  rw [← Option.isNone_map, extension?_dropAdds, ← h.map_dropAdds, ← extension?_dropAdds,
    Option.isNone_map]

theorem Respells.knowsFlavor (h : fs.Respells catalog fs') (flavor : String) :
    fs'.knowsFlavor flavor = fs.knowsFlavor flavor := by
  have hx : ∀ s : FeatureSet, s.extensions.any (·.supports flavor) =
      (s.extensions.map Feature.dropAdds).any (·.supports flavor) := by
    intro s
    rw [List.any_map]
    rfl
  rw [FeatureSet.knowsFlavor, FeatureSet.knowsFlavor, hx, hx, h.map_dropAdds, h.versions]

end FeatureSet

namespace Registry

variable {R : Registry} {q : Request} {fs fs' : FeatureSet} {c : String} {t : Tier}
  {types : TypeGraph} {ds : List Declaration} {policy : TierPolicy}

def withFeatures (R : Registry) (fs : FeatureSet) : Registry := { R with features := fs }

@[simp] theorem catalog_withFeatures : (R.withFeatures fs).catalog = R.catalog := rfl

@[simp] theorem features_withFeatures : (R.withFeatures fs).features = fs := rfl

@[simp] theorem policy_withFeatures : (R.withFeatures fs).policy = R.policy := rfl

theorem mem_tiers_iff_names (hc : R.catalog.Coherent) : c ∈ (R.answer q).tiers.get t ↔
    (∃ n ∈ R.rawSet q, R.catalog.Names c n) ∧ R.catalog.tierOf c = some t := by
  constructor
  · intro h
    exact ⟨mem_tiers_answer.mp ⟨t, h⟩,
      (tierOf_answer hc h).symm.trans ((oneTier_answer hc).tierOf_eq_some_iff.mpr h)⟩
  · rintro ⟨hn, ht⟩
    obtain ⟨t', h⟩ := mem_tiers_answer.mpr hn
    rw [← tierOf_answer hc h] at ht
    exact (oneTier_answer hc).tierOf_eq_some_iff.mp ht

section Respelled

variable (hs : R.features.Respells R.catalog fs')
include hs

theorem versionSet_respelled :
    (R.withFeatures fs').versionSet q = R.versionSet q := by
  ext f
  rw [mem_versionSet_iff, mem_versionSet_iff, features_withFeatures, hs.versions]

theorem exists_extensionSet_respelled {f : Feature} (hf : f ∈ R.extensionSet q) :
    ∃ f' ∈ (R.withFeatures fs').extensionSet q, f.Respells R.catalog f' := by
  rw [mem_extensionSet_iff] at hf
  obtain ⟨f', hf', hr⟩ := hs.exists_of_mem hf.1
  have he : q.enablesExtension f' = q.enablesExtension f := by
    rw [hr.rest]
    rfl
  exact ⟨f', mem_extensionSet_iff.mpr ⟨hf', he ▸ hf.2⟩, hr⟩

theorem names_rawSet_respelled (h : ∃ n ∈ R.rawSet q, R.catalog.Names c n) :
    ∃ n ∈ (R.withFeatures fs').rawSet q, R.catalog.Names c n := by
  obtain ⟨n, hn, hc⟩ := h
  simp only [mem_rawSet_iff, versionSet_respelled hs] at hn ⊢
  rcases hn with hv | ⟨x, hx, hn⟩
  · exact ⟨n, .inl hv, hc⟩
  · obtain ⟨x', hx', hr⟩ := exists_extensionSet_respelled hs hx
    obtain ⟨n', hn', hc'⟩ := hr.names_iff.mp ⟨n, hn, hc⟩
    exact ⟨n', .inr ⟨x', hx', hn'⟩, hc'⟩

theorem names_rawSet_respelled_iff :
    (∃ n ∈ (R.withFeatures fs').rawSet q, R.catalog.Names c n) ↔
      ∃ n ∈ R.rawSet q, R.catalog.Names c n :=
  ⟨names_rawSet_respelled (R := R.withFeatures fs') hs.symm, names_rawSet_respelled hs⟩

theorem tiers_respelled (hc : R.catalog.Coherent) :
    ((R.withFeatures fs').answer q).tiers = (R.answer q).tiers := by
  apply TierBuckets.ext_get
  intro t
  apply eq_of_pairwise_of_mem_iff
  · exact pairwise_get_bucketsOf _ t
  · exact pairwise_get_bucketsOf _ t
  · intro c
    rw [mem_tiers_iff_names (R := R.withFeatures fs') hc, mem_tiers_iff_names hc,
      catalog_withFeatures, names_rawSet_respelled_iff hs]

theorem loadSequences_respelled (hc : R.catalog.Coherent) :
    ((R.withFeatures fs').answer q).loadSequences =
      (R.answer q).loadSequences := by
  apply TierBuckets.ext_get
  intro t
  rw [get_loadSequences, get_loadSequences, tiers_respelled hs hc, policy_withFeatures]

theorem unknownExtensions_respelled :
    (R.withFeatures fs').unknownExtensions q = R.unknownExtensions q := by
  simp only [unknownExtensions, features_withFeatures, hs.isNone_extension?]

theorem answer_respelled (hc : R.catalog.Coherent) :
    (R.withFeatures fs').answer q = { R.answer q with
      aliases := ((R.withFeatures fs').answer q).aliases } := by
  have hv : FeatureTable.ofFeatures q.enablesVersion fs'.apiVersions =
      FeatureTable.ofFeatures q.enablesVersion R.features.apiVersions := by
    rw [FeatureSet.apiVersions, hs.versions]
    rfl
  have hx : FeatureTable.ofFeatures q.enablesExtension fs'.extensions =
      FeatureTable.ofFeatures q.enablesExtension R.features.extensions := by
    rw [← Feature.ofFeatures_dropAdds, ← hs.map_dropAdds, Feature.ofFeatures_dropAdds]
  have ht := tiers_respelled (q := q) hs hc
  have hl := loadSequences_respelled (q := q) hs hc
  have hu := unknownExtensions_respelled (q := q) hs
  have hf := hs.knowsFlavor q.flavor
  simp only [answer] at ht hl hu hf ⊢
  simp only [features_withFeatures, ht, hl, hu, hf, hv, hx]

end Respelled

/-- Names that replace declared ones are declared, so that the registry is accepted again. -/
theorem assemble_respelled (h : assemble types ds fs policy = .ok R)
    (hs : fs.Respells R.catalog fs') :
    assemble types ds fs' policy = .ok (R.withFeatures fs') := by
  obtain ⟨hc, hb, hu, hR⟩ := of_assemble h
  have hu' : ∀ u, fs'.Uses u → R.catalog.contains u.name := by
    rintro ⟨f', removal, n⟩ ⟨hf', hn⟩
    rcases hf' with hf' | hf'
    · refine hu ⟨f', removal, n⟩ ⟨.inl ?_, hn⟩
      rw [FeatureSet.apiVersion?, ← hs.versions]
      exact hf'
    · obtain ⟨f, hf, hr⟩ := hs.symm.exists_of_mem (FeatureSet.mem_extensions.mpr hf')
      cases removal with
      | false =>
        obtain ⟨m, -, c, hc, -⟩ := hr.replaced n hn
        exact hc.contains
      | true =>
        refine hu ⟨f, true, n⟩ ⟨.inr (FeatureSet.mem_extensions.mp hf), ?_⟩
        change n ∈ f.removes
        rw [hr.rest]
        exact hn
  rw [assemble_of_contains hc hb hu', hR]
  rfl

/-- If the extensions of a registry add their entry points by other names, then the answers keep
all but their alias groups. -/
theorem resolve_respelled (types : TypeGraph) (ds : List Declaration) (policy : TierPolicy)
    (fs fs' : FeatureSet) (R : Registry) (h : assemble types ds fs policy = .ok R)
    (hs : fs.Respells R.catalog fs') : ∃ R', assemble types ds fs' policy = .ok R' ∧
      ∀ q, ∃ r r', R.resolve q = .ok r ∧ R'.resolve q = .ok r' ∧
        r' = { r with aliases := r'.aliases } ∧ r'.enabledCount = r.enabledCount := by
  have h' := assemble_respelled h hs
  have hc := Catalog.coherent_of_build (build_of_assemble h).2.2
  obtain rfl := features_of_assemble h
  refine ⟨_, h', fun q => ⟨_, _, resolve_of_assemble h q, resolve_of_assemble h' q,
    answer_respelled hs hc, ?_⟩⟩
  rw [Resolution.enabledCount, tiers_respelled hs hc]
  rfl

def spelledFeatures (adds : NameSet) : FeatureSet :=
  (FeatureSet.insert ∅ revokingVersion).insert { restoringExtension with adds }

def wordyFeatures : FeatureSet := spelledFeatures (.ofList (deviceCommands.map (·.name)))

def terseFeatures : FeatureSet := spelledFeatures (.ofList ["vkDestroyDevice"])

theorem names_deviceCatalog {n : String} (hn : n ∈ deviceCommands.map (·.name)) :
    deviceCatalog.Names "vkDestroyDevice" n := by
  simp only [deviceCommands, List.map_cons, List.map_nil, List.mem_cons, List.not_mem_nil,
    or_false] at hn
  rcases hn with rfl | rfl
  · exact ⟨⟨deviceCommands[0], "vkDestroyDevice", some "VkDevice", .scopeB⟩, by decide, rfl⟩
  · exact ⟨⟨deviceCommands[1], "vkDestroyDevice", some "VkDevice", .scopeB⟩, by decide, rfl⟩

theorem respells_wordyFeatures : wordyFeatures.Respells deviceCatalog terseFeatures := by
  have hx : ∀ adds, (spelledFeatures adds).extensions = [{ restoringExtension with adds }] :=
    fun _ => rfl
  have hc : deviceCatalog.Names "vkDestroyDevice" "vkDestroyDevice" :=
    names_deviceCatalog (by decide)
  constructor
  · rfl
  · rw [wordyFeatures, terseFeatures, hx, hx]
    refine .cons ⟨rfl, fun n hn => ?_, fun n hn => ?_⟩ .nil
    · exact ⟨"vkDestroyDevice", by decide, _, names_deviceCatalog (NameSet.mem_ofList.mp hn), hc⟩
    · rw [List.mem_singleton.mp (NameSet.mem_ofList.mp hn)]
      exact ⟨"vkDestroyDevice", by decide, _, hc, hc⟩

/-- One name of the command in place of both lists the same, and drops the alias. -/
theorem resolve_wordyFeatures :
    assemble deviceTypes deviceCommands wordyFeatures .vulkan =
      .ok (deviceRegistry wordyFeatures) ∧
    wordyFeatures.Respells deviceCatalog terseFeatures ∧
    ∃ R' r r', assemble deviceTypes deviceCommands terseFeatures .vulkan = .ok R' ∧
      (deviceRegistry wordyFeatures).resolve {} = .ok r ∧ R'.resolve {} = .ok r' ∧
      r'.tiers = r.tiers ∧ r'.tiers.scopeB = ["vkDestroyDevice"] ∧ r'.aliases ≠ r.aliases := by
  have h : assemble deviceTypes deviceCommands wordyFeatures .vulkan =
      .ok (deviceRegistry wordyFeatures) := assemble_deviceRegistry (by decide)
  have hs := respells_wordyFeatures
  obtain ⟨R', hR', hq⟩ := resolve_respelled _ _ _ _ _ _ h hs
  obtain ⟨r, r', hr, hr', he, -⟩ := hq {}
  have ht : r'.tiers = r.tiers := by rw [he]
  have hrr := (resolve_eq_ok_iff.mp hr).2
  have hrr' := (resolve_eq_ok_iff.mp hr').2
  obtain rfl := Except.ok.inj ((assemble_respelled h hs).symm.trans hR')
  refine ⟨h, hs, _, r, r', hR', hr, hr', ht, ?_, ?_⟩
  · rw [ht, ← hrr]
    decide +kernel
  · rw [← hrr, ← hrr']
    decide +kernel

end Registry

end LoadTiers
