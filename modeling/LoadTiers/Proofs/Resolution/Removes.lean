import LoadTiers.Proofs.Resolution.Refusal

/-! # Removes without effect

Only what the enabled API versions remove matters to a request. If all other features remove
different names, then the request has the same answer or the same refusal.
-/

namespace LoadTiers

/-- The roster with its items replaced by items of the same names. -/
def Roster.map {α : Type} {name : α → String} (r : Roster name) (f : α → α)
    (hf : ∀ x, name (f x) = name x) : Roster name where
  toList := r.toList.map f
  sorted := by
    simp only [List.pairwise_map, hf]
    exact r.sorted

namespace Feature

variable {g : Feature → NameSet} {q : Request} {fs : List Feature}

def setRemoves (g : Feature → NameSet) (f : Feature) : Feature := { f with removes := g f }

theorem enablesVersion_setRemoves : q.enablesVersion ∘ setRemoves g = q.enablesVersion := rfl

theorem enablesExtension_setRemoves : q.enablesExtension ∘ setRemoves g = q.enablesExtension := rfl

theorem addsOf_setRemoves : Registry.addsOf (fs.map (setRemoves g)) = Registry.addsOf fs := by
  rw [Registry.addsOf, List.foldl_map]
  rfl

theorem ofFeatures_setRemoves {enabled : Feature → Bool}
    (he : enabled ∘ setRemoves g = enabled) :
    FeatureTable.ofFeatures enabled (fs.map (setRemoves g)) =
      FeatureTable.ofFeatures enabled fs := by
  have hn : (fun f => !enabled f) ∘ setRemoves g = fun f => !enabled f := by
    funext f
    exact congrArg (!·) (congrFun he f)
  simp only [FeatureTable.ofFeatures, List.filter_map, he, hn, List.map_map]
  rfl

end Feature

namespace FeatureSet

variable {s : FeatureSet} {g : Feature → NameSet}

def withRemoves (s : FeatureSet) (g : Feature → NameSet) : FeatureSet where
  versions := s.versions.map (Feature.setRemoves g) fun _ => rfl
  extensionRoster := s.extensionRoster.map (Feature.setRemoves g) fun _ => rfl
  isVersion := by
    intro f hf
    obtain ⟨f', hf', rfl⟩ := List.mem_map.mp hf
    exact s.isVersion f' hf'
  isExtension := by
    intro f hf
    obtain ⟨f', hf', rfl⟩ := List.mem_map.mp hf
    exact s.isExtension f' hf'

theorem apiVersions_withRemoves :
    (s.withRemoves g).apiVersions = s.apiVersions.map (Feature.setRemoves g) := by
  have hb : ∀ f ∈ s.versions.toList, ∀ f' ∈ s.versions.toList,
      f.before f' = (f.setRemoves g).before (f'.setRemoves g) := fun _ _ _ _ => rfl
  exact (List.map_mergeSort hb).symm

theorem extensions_withRemoves :
    (s.withRemoves g).extensions = s.extensions.map (Feature.setRemoves g) := rfl

theorem extension?_withRemoves {n : String} :
    (s.withRemoves g).extension? n = (s.extension? n).map (Feature.setRemoves g) :=
  List.find?_map

theorem knowsFlavor_withRemoves {flavor : String} :
    (s.withRemoves g).knowsFlavor flavor = s.knowsFlavor flavor := by
  have hv : (s.withRemoves g).versions.toList = s.versions.toList.map (Feature.setRemoves g) := rfl
  rw [knowsFlavor, extensions_withRemoves, hv, List.any_map, List.any_map]
  rfl

end FeatureSet

namespace Registry

variable {R : Registry} {q : Request} {g : Feature → NameSet}

def withRemoves (R : Registry) (g : Feature → NameSet) : Registry :=
  { R with features := R.features.withRemoves g }

theorem enabledVersions_withRemoves (hg : ∀ f ∈ R.versionSet q, g f = f.removes) :
    (R.withRemoves g).enabledVersions q = R.enabledVersions q := by
  have hv : (R.withRemoves g).enabledVersions q =
      (R.enabledVersions q).map (Feature.setRemoves g) := by
    rw [enabledVersions, withRemoves, FeatureSet.apiVersions_withRemoves, List.filter_map]
    rfl
  rw [hv]
  refine (List.map_congr_left fun f hf => ?_).trans (List.map_id _)
  rw [Feature.setRemoves, hg f (mem_enabledVersions.mp hf), id]

theorem enabledExtensions_withRemoves : (R.withRemoves g).enabledExtensions q =
    (R.enabledExtensions q).map (Feature.setRemoves g) := by
  rw [enabledExtensions, withRemoves, FeatureSet.extensions_withRemoves, List.filter_map]
  rfl

theorem checkEnabled_withRemoves (hg : ∀ f ∈ R.versionSet q, g f = f.removes) :
    (R.withRemoves g).checkEnabled q = R.checkEnabled q := by
  rw [checkEnabled, enabledVersions_withRemoves hg, enabledExtensions_withRemoves]
  simp only [List.forM_eq_forM, List.forM_map]
  rfl

theorem rawNames_withRemoves (hg : ∀ f ∈ R.versionSet q, g f = f.removes) :
    (R.withRemoves g).rawNames q = R.rawNames q := by
  rw [rawNames, enabledVersions_withRemoves hg, enabledExtensions_withRemoves,
    Feature.addsOf_setRemoves]
  rfl

theorem unknownExtensions_withRemoves :
    (R.withRemoves g).unknownExtensions q = R.unknownExtensions q := by
  simp only [unknownExtensions, withRemoves, FeatureSet.extension?_withRemoves, Option.isNone_map]

/-- Removes outside of the enabled API versions have no effect on an answer. -/
theorem answer_withRemoves (hg : ∀ f ∈ R.versionSet q, g f = f.removes) :
    (R.withRemoves g).answer q = R.answer q := by
  have hr : (R.withRemoves g).rawEntries q = R.rawEntries q := by
    rw [rawEntries, rawNames_withRemoves hg]
    rfl
  have hv : FeatureTable.ofFeatures q.enablesVersion (R.withRemoves g).features.apiVersions =
      FeatureTable.ofFeatures q.enablesVersion R.features.apiVersions := by
    rw [withRemoves, FeatureSet.apiVersions_withRemoves]
    exact Feature.ofFeatures_setRemoves Feature.enablesVersion_setRemoves
  have he : FeatureTable.ofFeatures q.enablesExtension (R.withRemoves g).features.extensions =
      FeatureTable.ofFeatures q.enablesExtension R.features.extensions :=
    Feature.ofFeatures_setRemoves Feature.enablesExtension_setRemoves
  have hf : (R.withRemoves g).features.knowsFlavor q.flavor = R.features.knowsFlavor q.flavor :=
    FeatureSet.knowsFlavor_withRemoves
  rw [answer, hr, hv, he, hf, unknownExtensions_withRemoves]
  rfl

theorem resolve_withRemoves (hg : ∀ f ∈ R.versionSet q, g f = f.removes) :
    (R.withRemoves g).resolve q = R.resolve q := by
  rw [resolve_eq, resolve_eq, checkEnabled_withRemoves hg, answer_withRemoves hg]

end Registry

end LoadTiers
