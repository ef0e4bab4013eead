import LoadTiers.Proofs.Resolution.Partition

/-! # What an answer depends on

Two requests that enable the same features of a registry have the same answer. Over one catalog and
one policy the names that are enabled determine what an answer lists.
-/

namespace LoadTiers

def Catalog.Names (catalog : Catalog) (c n : String) : Prop :=
  ∃ e, catalog.get? n = some e ∧ e.canonical = c

/-- Both answers list the same names, and group the same aliases. -/
structure Resolution.Agrees (r r' : Resolution) : Prop where
  tiers : r.tiers = r'.tiers
  loadSequences : r.loadSequences = r'.loadSequences
  aliases : r.aliases = r'.aliases

theorem FeatureTable.ofFeatures_congr {p p' : Feature → Bool} {fs : List Feature}
    (h : ∀ f ∈ fs, p f = p' f) : ofFeatures p fs = ofFeatures p' fs := by
  have hn : ∀ f ∈ fs, (!p f) = !p' f := fun f hf => congrArg (!·) (h f hf)
  rw [ofFeatures, ofFeatures, List.filter_congr h, List.filter_congr hn]

namespace Registry

variable {R R' : Registry} {q q' : Request} {c n : String} {t : Tier} {f : Feature}
  {fs : FeatureSet}

theorem mem_versionSet_iff :
    f ∈ R.versionSet q ↔ f ∈ R.features.versions.toList ∧ q.enablesVersion f := by
  rw [← mem_enabledVersions, enabledVersions, List.mem_filter, FeatureSet.apiVersions,
    List.mem_mergeSort]

theorem mem_extensionSet_iff :
    f ∈ R.extensionSet q ↔ f ∈ R.features.extensions ∧ q.enablesExtension f := by
  rw [← mem_enabledExtensions, enabledExtensions, List.mem_filter]

theorem mem_rawSet_iff : n ∈ R.rawSet q ↔
    ((∃ v ∈ R.versionSet q, n ∈ v.adds) ∧ ∀ v ∈ R.versionSet q, n ∉ v.removes) ∨
      ∃ x ∈ R.extensionSet q, n ∈ x.adds := by
  simp [rawSet]

theorem isEnabled_answer_iff :
    (R.answer q).isEnabled c ↔ ∃ n ∈ R.rawSet q, R.catalog.Names c n := by
  rw [Resolution.isEnabled_iff]
  exact mem_tiers_answer

theorem mem_aliasesOf_answer :
    n ∈ (R.answer q).aliases.aliasesOf c ↔ n ∈ R.aliasSet q c := by
  rw [answer, mem_aliasesOf_aliasTable, mem_aliasSet]

theorem rawEntries_congr (hc : R.catalog = R'.catalog) (h : R.rawSet q = R'.rawSet q') :
    R.rawEntries q = R'.rawEntries q' := by
  have hn : R.rawNames q = R'.rawNames q' := by
    apply NameSet.ext
    intro n
    rw [mem_rawNames, mem_rawNames, h]
  rw [rawEntries, rawEntries, hn, hc]

theorem agrees_answer (hc : R.catalog = R'.catalog) (hp : R.policy = R'.policy)
    (h : R.rawSet q = R'.rawSet q') : (R.answer q).Agrees (R'.answer q') := by
  have he := rawEntries_congr hc h
  constructor <;> simp only [answer, he, hp]

section SameFeatures

variable (hv : ∀ f ∈ R.features.apiVersions, q.enablesVersion f = q'.enablesVersion f)
  (hx : ∀ f ∈ R.features.extensions, q.enablesExtension f = q'.enablesExtension f)
include hv hx

theorem rawSet_congr : R.rawSet q = R.rawSet q' := by
  have hvs : R.enabledVersions q = R.enabledVersions q' := List.filter_congr hv
  have hxs : R.enabledExtensions q = R.enabledExtensions q' := List.filter_congr hx
  ext n
  rw [← mem_rawNames, ← mem_rawNames, rawNames, rawNames, hvs, hxs]

/-- But for the name of the version that was asked for, an answer depends on a request through the
features that it enables and the extensions that it names in vain. -/
theorem answer_congr (hf : q.flavor = q'.flavor)
    (hu : R.unknownExtensions q = R.unknownExtensions q') :
    R.answer q = { R.answer q' with requestedVersion := toString q.version } := by
  have he := rawEntries_congr rfl (rawSet_congr hv hx)
  have htv : FeatureTable.ofFeatures q.enablesVersion R.features.apiVersions =
      FeatureTable.ofFeatures q'.enablesVersion R.features.apiVersions :=
    FeatureTable.ofFeatures_congr hv
  have htx : FeatureTable.ofFeatures q.enablesExtension R.features.extensions =
      FeatureTable.ofFeatures q'.enablesExtension R.features.extensions :=
    FeatureTable.ofFeatures_congr hx
  simp only [answer, he, htv, htx, hf, hu]

end SameFeatures

def deviceCatalog : Catalog :=
  .ofList (deviceCommands.map (⟨·, "vkDestroyDevice", some "VkDevice", .scopeB⟩))

def deviceRegistry (fs : FeatureSet) : Registry where
  types := deviceTypes
  catalog := deviceCatalog
  features := fs
  policy := .vulkan

theorem assemble_deviceRegistry (h : ∀ f ∈ fs.versions.toList ++ fs.extensions,
      ∀ n ∈ f.adds.toList ++ f.removes.toList, deviceCatalog.contains n) :
    assemble deviceTypes deviceCommands fs .vulkan = .ok (deviceRegistry fs) := by
  apply assemble_of_contains
  · exact (TypeGraph.checkAcyclic_eq_ok_iff namesParents_deviceTypes).mpr acyclic_deviceTypes
  · decide +kernel
  · exact of_uses h

end Registry

end LoadTiers
