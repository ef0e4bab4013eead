import LoadTiers.Feature

/-! # The order of features

API versions are gone through by version and name, and extensions after them by name. The lists of a
feature set are strictly ordered so, and hold each feature once.
-/

namespace LoadTiers

namespace Version

variable {u v w : Version}

theorem lt_def : v < w ↔ v.major < w.major ∨ v.major = w.major ∧ v.minor < w.minor := Iff.rfl

theorem lt_trans (h : u < v) (h' : v < w) : u < w := by
  simp only [lt_def, UInt32.lt_iff_toNat_lt, ← UInt32.toNat_inj] at *
  omega

theorem lt_asymm (h : v < w) : ¬ w < v := by
  simp only [lt_def, UInt32.lt_iff_toNat_lt, ← UInt32.toNat_inj] at *
  omega

theorem le_def : v ≤ w ↔ v.major < w.major ∨ v.major = w.major ∧ v.minor ≤ w.minor := Iff.rfl

theorem le_trans (h : u ≤ v) (h' : v ≤ w) : u ≤ w := by
  simp only [le_def, UInt32.lt_iff_toNat_lt, UInt32.le_iff_toNat_le, ← UInt32.toNat_inj] at *
  omega

theorem not_le : ¬ v ≤ w ↔ w < v := by
  simp only [le_def, lt_def, UInt32.lt_iff_toNat_lt, UInt32.le_iff_toNat_le, ← UInt32.toNat_inj]
  omega

theorem lt_trichotomy (v w : Version) : v < w ∨ v = w ∨ w < v := by
  obtain ⟨a, b⟩ := v
  obtain ⟨c, d⟩ := w
  simp only [lt_def, mk.injEq, UInt32.lt_iff_toNat_lt, ← UInt32.toNat_inj]
  omega

end Version

namespace Feature

variable {f g h : Feature}

theorem before_iff : f.before g ↔
    f.version < g.version ∨ f.version = g.version ∧ f.name ≤ g.name := by
  simp [before]

theorem before_trans (f g h : Feature) (hf : f.before g) (hg : g.before h) : f.before h := by
  rw [before_iff] at *
  rcases hf with hf | ⟨hf, hn⟩
  · rcases hg with hg | ⟨hg, -⟩
    · exact .inl (Version.lt_trans hf hg)
    · exact .inl (hg ▸ hf)
  · rcases hg with hg | ⟨hg, hn'⟩
    · exact .inl (hf ▸ hg)
    · exact .inr ⟨hf.trans hg, String.le_trans hn hn'⟩

theorem before_total (f g : Feature) : f.before g || g.before f := by
  rw [Bool.or_eq_true, before_iff, before_iff]
  rcases Version.lt_trichotomy f.version g.version with h | h | h
  · exact .inl (.inl h)
  · rcases String.le_total f.name g.name with hn | hn
    · exact .inl (.inr ⟨h, hn⟩)
    · exact .inr (.inr ⟨h.symm, hn⟩)
  · exact .inr (.inl h)

/-- The order in which features are gone through. -/
inductive Precedes (f g : Feature) : Prop

  | version (hf : f.isExtension = false) (hg : g.isExtension = false)
      (h : f.version < g.version)

  | versionName (hf : f.isExtension = false) (hg : g.isExtension = false)
      (h : f.version = g.version) (hn : f.name < g.name)

  | kind (hf : f.isExtension = false) (hg : g.isExtension = true)

  | extensionName (hf : f.isExtension = true) (hg : g.isExtension = true) (hn : f.name < g.name)

theorem Precedes.asymm (h : f.Precedes g) : ¬ g.Precedes f := by
  intro h'
  cases h <;> cases h' <;> grind [Version.lt_asymm, String.lt_asymm]

end Feature

namespace FeatureSet

variable {s : FeatureSet} {f : Feature}

theorem mem_apiVersions : f ∈ s.apiVersions ↔ s.apiVersion? f.name = some f := by
  rw [apiVersions, List.mem_mergeSort, apiVersion?, Roster.get?_eq_some_iff, and_iff_left rfl]

theorem mem_extensions : f ∈ s.extensions ↔ s.extension? f.name = some f := by
  rw [extensions, extension?, Roster.get?_eq_some_iff, and_iff_left rfl]

theorem isExtension_of_mem_apiVersions (h : f ∈ s.apiVersions) : f.isExtension = false :=
  s.isVersion f (List.mem_mergeSort.mp h)

theorem isExtension_of_mem_extensions (h : f ∈ s.extensions) : f.isExtension = true :=
  s.isExtension f h

theorem apiVersions_pairwise (s : FeatureSet) : s.apiVersions.Pairwise Feature.Precedes := by
  have hb : s.apiVersions.Pairwise (fun f g => f.before g) :=
    List.pairwise_mergeSort Feature.before_trans Feature.before_total _
  have hn : s.apiVersions.Pairwise fun f g => f.name ≠ g.name := by
    refine ((List.mergeSort_perm _ _).pairwise_iff fun h => h.symm).mpr ?_
    exact s.versions.sorted.imp fun h => String.ne_of_lt h
  refine (hb.and hn).imp_of_mem fun hf hg ⟨h, hne⟩ => ?_
  rw [Feature.before_iff] at h
  rcases h with h | ⟨h, hle⟩
  · exact .version (isExtension_of_mem_apiVersions hf) (isExtension_of_mem_apiVersions hg) h
  · refine .versionName (isExtension_of_mem_apiVersions hf) (isExtension_of_mem_apiVersions hg) h ?_
    exact String.not_le.mp fun hge => hne (String.le_antisymm hle hge)

theorem extensions_pairwise (s : FeatureSet) : s.extensions.Pairwise Feature.Precedes :=
  s.extensionRoster.sorted.imp_of_mem fun hf hg h =>
    .extensionName (s.isExtension _ hf) (s.isExtension _ hg) h

end FeatureSet

end LoadTiers
