import LoadTiers.Proofs.Resolution.Dependence

/-! # Disabled features

The lists of an answer come from the adds and removes of enabled features. Features that a request
ignores can come, go and change without effect on them, and so can the removes of extensions.
-/

namespace LoadTiers

theorem exists_congr_of_image_eq {α β : Type} {s t : Set α} {f : α → β} (h : f '' s = f '' t)
    (p : β → Prop) : (∃ x ∈ s, p (f x)) ↔ ∃ x ∈ t, p (f x) := by
  rw [← Set.exists_mem_image, h, Set.exists_mem_image]

inductive Request.Ignores (q : Request) (f : Feature) : Prop

  | tooNew (hf : f.isExtension = false) (h : ¬ q.version.admits f.version)

  | otherFlavor (h : q.flavor ∉ f.flavors)

  | unselected (hf : f.isExtension = true) (h : ¬ q.extensions.selects f.name)

  | deprecated (h : f.isDeprecated)

theorem Feature.isDeprecated_of_version {f : Feature} (hf : f.isExtension = false) :
    f.isDeprecated = false := by
  unfold isExtension at hf
  unfold isDeprecated
  cases hk : f.kind with
  | apiVersion => rfl
  | extension _ _ =>
    rw [hk] at hf
    cases hf

namespace FeatureSet

variable {s s' : FeatureSet} {f g : Feature} {q : Request}

def Has (s : FeatureSet) (f : Feature) : Prop :=
  s.apiVersion? f.name = some f ∨ s.extension? f.name = some f

theorem has_iff : s.Has f ↔ f ∈ s.versions.toList ∨ f ∈ s.extensionRoster.toList := by
  rw [Has, apiVersion?, extension?, Roster.get?_eq_some_iff, Roster.get?_eq_some_iff,
    and_iff_left rfl, and_iff_left rfl]

theorem has_version_iff (hf : f.isExtension = false) : s.Has f ↔ f ∈ s.versions.toList := by
  rw [has_iff, or_iff_left]
  intro h
  rw [s.isExtension f h] at hf
  cases hf

theorem has_extension_iff (hf : f.isExtension = true) :
    s.Has f ↔ f ∈ s.extensionRoster.toList := by
  rw [has_iff, or_iff_right]
  intro h
  rw [s.isVersion f h] at hf
  cases hf

theorem replaced_eq_some_iff :
    s.replaced f = some g ↔ s.Has g ∧ g.isExtension = f.isExtension ∧ g.name = f.name := by
  unfold replaced
  split
  · next hf =>
    rw [extension?, Roster.get?_eq_some_iff, hf]
    constructor
    · rintro ⟨hg, hn⟩
      exact ⟨has_iff.mpr (.inr hg), s.isExtension g hg, hn⟩
    · rintro ⟨hg, hk, hn⟩
      exact ⟨(has_extension_iff hk).mp hg, hn⟩
  · next hf =>
    rw [Bool.not_eq_true] at hf
    rw [apiVersion?, Roster.get?_eq_some_iff, hf]
    constructor
    · rintro ⟨hg, hn⟩
      exact ⟨has_iff.mpr (.inl hg), s.isVersion g hg, hn⟩
    · rintro ⟨hg, hk, hn⟩
      exact ⟨(has_version_iff hk).mp hg, hn⟩

theorem has_insert_iff :
    (s.insert f).Has g ↔ g = f ∨ s.Has g ∧ ¬ (g.isExtension = f.isExtension ∧ g.name = f.name) := by
  have hv := s.isVersion g
  have hx := s.isExtension g
  unfold insert
  split
  · next hf =>
    simp only [has_iff, Roster.mem_insert]
    grind
  · next hf =>
    simp only [has_iff, Roster.mem_insert]
    grind

def erase (s : FeatureSet) (f : Feature) : FeatureSet where
  versions := s.versions.filter (· ≠ f)
  extensionRoster := s.extensionRoster.filter (· ≠ f)
  isVersion g hg := s.isVersion g (Roster.mem_filter.mp hg).1
  isExtension g hg := s.isExtension g (Roster.mem_filter.mp hg).1

theorem has_erase_iff : (s.erase f).Has g ↔ s.Has g ∧ g ≠ f := by
  simp only [has_iff, erase, Roster.mem_filter, decide_eq_true_eq, or_and_right]

end FeatureSet

namespace Request

variable {q : Request} {f : Feature}

theorem ignores_version_iff (hf : f.isExtension = false) :
    q.Ignores f ↔ ¬ q.enablesVersion f := by
  simp only [enablesVersion, Feature.supports, Bool.and_eq_true, decide_eq_true_eq, not_and_or]
  constructor
  · intro h
    cases h with
    | tooNew _ h => exact .inl h
    | otherFlavor h => exact .inr h
    | unselected hx _ => simp [hf] at hx
    | deprecated h => simp [Feature.isDeprecated_of_version hf] at h
  · rintro (h | h)
    · exact .tooNew hf h
    · exact .otherFlavor h

theorem ignores_extension_iff (hf : f.isExtension = true) :
    q.Ignores f ↔ ¬ q.enablesExtension f := by
  simp only [enablesExtension, Feature.supports, Bool.and_eq_true, decide_eq_true_eq, not_and_or,
    Bool.not_eq_true', Bool.not_eq_false]
  constructor
  · intro h
    cases h with
    | tooNew hv _ => simp [hf] at hv
    | otherFlavor h => exact .inl (.inr h)
    | unselected _ h => exact .inl (.inl h)
    | deprecated h => exact .inr h
  · rintro ((h | h) | h)
    · exact .unselected hf h
    · exact .otherFlavor h
    · exact .deprecated h

end Request

namespace Registry

variable {R R' : Registry} {q : Request} {f : Feature} {types : TypeGraph}
  {ds : List Declaration} {fs fs' : FeatureSet} {policy : TierPolicy}

/-- The enabled API versions have the same names, adds and removes, and the enabled extensions have
the same names and adds. -/
structure SameEnabled (R R' : Registry) (q : Request) : Prop where
  versions : (fun f => (f.name, f.adds, f.removes)) '' R.versionSet q =
    (fun f => (f.name, f.adds, f.removes)) '' R'.versionSet q
  extensions : (fun f => (f.name, f.adds)) '' R.extensionSet q =
    (fun f => (f.name, f.adds)) '' R'.extensionSet q

/-- Both registries answer the request, and the answers agree in what they list. -/
def AnswersAgree (R R' : Registry) (q : Request) : Prop :=
  ∃ r r', R.resolve q = .ok r ∧ R'.resolve q = .ok r' ∧ r.Agrees r'

theorem SameEnabled.rawSet_eq (h : R.SameEnabled R' q) : R.rawSet q = R'.rawSet q := by
  ext n
  have ha : (∃ v ∈ R.versionSet q, n ∈ v.adds) ↔ ∃ v ∈ R'.versionSet q, n ∈ v.adds :=
    exists_congr_of_image_eq h.versions fun p => n ∈ p.2.1
  have hr : (∃ v ∈ R.versionSet q, n ∈ v.removes) ↔ ∃ v ∈ R'.versionSet q, n ∈ v.removes :=
    exists_congr_of_image_eq h.versions fun p => n ∈ p.2.2
  have hx : (∃ x ∈ R.extensionSet q, n ∈ x.adds) ↔ ∃ x ∈ R'.extensionSet q, n ∈ x.adds :=
    exists_congr_of_image_eq h.extensions fun p => n ∈ p.2
  have hk : (∀ v ∈ R.versionSet q, n ∉ v.removes) ↔ ∀ v ∈ R'.versionSet q, n ∉ v.removes := by
    simpa using not_congr hr
  rw [mem_rawSet_iff, mem_rawSet_iff, ha, hk, hx]

theorem SameEnabled.answersAgree (h : R.SameEnabled R' q)
    (hR : assemble types ds fs policy = .ok R) (hR' : assemble types ds fs' policy = .ok R') :
    R.AnswersAgree R' q := by
  obtain ⟨rfl, rfl, hb⟩ := build_of_assemble hR
  obtain ⟨ht, hp, hb'⟩ := build_of_assemble hR'
  rw [ht, hp, hb] at hb'
  exact ⟨_, _, resolve_of_assemble hR q, resolve_of_assemble hR' q,
    agrees_answer (Except.ok.inj hb') hp.symm h.rawSet_eq⟩

theorem mem_versionSet_iff_has :
    f ∈ R.versionSet q ↔ R.features.Has f ∧ f.isExtension = false ∧ ¬ q.Ignores f := by
  rw [mem_versionSet_iff]
  constructor
  · rintro ⟨hm, he⟩
    have hf := R.features.isVersion f hm
    exact ⟨FeatureSet.has_iff.mpr (.inl hm), hf, fun h => (Request.ignores_version_iff hf).mp h he⟩
  · rintro ⟨hm, hf, he⟩
    rw [Request.ignores_version_iff hf, not_not] at he
    exact ⟨(FeatureSet.has_version_iff hf).mp hm, he⟩

theorem mem_extensionSet_iff_has :
    f ∈ R.extensionSet q ↔ R.features.Has f ∧ f.isExtension = true ∧ ¬ q.Ignores f := by
  rw [mem_extensionSet_iff]
  constructor
  · rintro ⟨hm, he⟩
    have hf := R.features.isExtension f hm
    exact ⟨FeatureSet.has_iff.mpr (.inr hm), hf,
      fun h => (Request.ignores_extension_iff hf).mp h he⟩
  · rintro ⟨hm, hf, he⟩
    rw [Request.ignores_extension_iff hf, not_not] at he
    exact ⟨(FeatureSet.has_extension_iff hf).mp hm, he⟩

/-- Feature sets that differ in ignored features only are alike to the request. -/
theorem sameEnabled_of_has
    (h : ∀ f, ¬ q.Ignores f → (R.features.Has f ↔ R'.features.Has f)) : R.SameEnabled R' q := by
  have hv : R.versionSet q = R'.versionSet q := by
    ext f
    rw [mem_versionSet_iff_has, mem_versionSet_iff_has]
    exact and_congr_left fun hf => h f hf.2
  have hx : R.extensionSet q = R'.extensionSet q := by
    ext f
    rw [mem_extensionSet_iff_has, mem_extensionSet_iff_has]
    exact and_congr_left fun hf => h f hf.2
  exact ⟨by rw [hv], by rw [hx]⟩

theorem features_of_assemble (h : assemble types ds fs policy = .ok R) : R.features = fs := by
  obtain ⟨-, -, -, hR⟩ := of_assemble h
  rw [hR]

theorem answersAgree_insert (hR : assemble types ds fs policy = .ok R)
    (hR' : assemble types ds (fs.insert f) policy = .ok R') (hf : q.Ignores f)
    (hr : ∀ g, fs.replaced f = some g → q.Ignores g) : R.AnswersAgree R' q := by
  refine (sameEnabled_of_has fun g hg => ?_).answersAgree hR hR'
  rw [features_of_assemble hR, features_of_assemble hR', FeatureSet.has_insert_iff]
  constructor
  · intro hs
    exact .inr ⟨hs, fun hkn => hg (hr g (FeatureSet.replaced_eq_some_iff.mpr ⟨hs, hkn⟩))⟩
  · rintro (rfl | ⟨hs, -⟩)
    · exact absurd hf hg
    · exact hs

theorem answersAgree_erase (hR : assemble types ds fs policy = .ok R) (hf : q.Ignores f) :
    ∃ R', assemble types ds (fs.erase f) policy = .ok R' ∧ R.AnswersAgree R' q := by
  obtain ⟨hc, hb, hu, -⟩ := of_assemble hR
  have hu' : ∀ u, (fs.erase f).Uses u → R.catalog.contains u.name := by
    rintro u ⟨hs, hn⟩
    exact hu u ⟨(FeatureSet.has_erase_iff.mp hs).1, hn⟩
  have hR' := assemble_of_contains hc hb hu'
  refine ⟨_, hR', (sameEnabled_of_has fun g hg => ?_).answersAgree hR hR'⟩
  rw [features_of_assemble hR, features_of_assemble hR', FeatureSet.has_erase_iff, iff_self_and]
  rintro - rfl
  exact hg hf

theorem answersAgree_withRemoves {g : Feature → NameSet}
    (hR : assemble types ds fs policy = .ok R)
    (hR' : assemble types ds (fs.withRemoves g) policy = .ok R')
    (hg : ∀ f, f.isExtension = false → g f = f.removes) : R.AnswersAgree R' q := by
  obtain ⟨-, hb, -, h⟩ := of_assemble hR
  obtain ⟨-, hb', -, h'⟩ := of_assemble hR'
  have hc : R.catalog = R'.catalog := Except.ok.inj (hb.symm.trans hb')
  have he : R' = R.withRemoves g := by
    rw [h', h, ← hc]
    rfl
  have hv : ∀ f ∈ R.versionSet q, g f = f.removes := by
    intro f hf
    exact hg f (mem_versionSet_iff_has.mp hf).2.1
  refine ⟨R.answer q, R.answer q, resolve_of_assemble hR q, ?_, rfl, rfl, rfl⟩
  rw [he, resolve_withRemoves hv, resolve_of_assemble hR]

/-- Registries over the same types, declarations and policy list the same for a request to which
they enable the same. So ignored features can be inserted, replaced by each other and erased, and
extensions can remove what they want. -/
theorem noninterference_disabled (types : TypeGraph) (ds : List Declaration) (policy : TierPolicy)
    (fs : FeatureSet) (R : Registry) (h : assemble types ds fs policy = .ok R) (q : Request) :
    (∀ fs' R', assemble types ds fs' policy = .ok R' → R.SameEnabled R' q →
      R.AnswersAgree R' q) ∧
    (∀ f, q.Ignores f → (∀ g, fs.replaced f = some g → q.Ignores g) →
      ∀ R', assemble types ds (fs.insert f) policy = .ok R' → R.AnswersAgree R' q) ∧
    (∀ f, q.Ignores f →
      ∃ R', assemble types ds (fs.erase f) policy = .ok R' ∧ R.AnswersAgree R' q) ∧
    ∀ g : Feature → NameSet, (∀ f, f.isExtension = false → g f = f.removes) →
      ∀ R', assemble types ds (fs.withRemoves g) policy = .ok R' → R.AnswersAgree R' q := by
  refine ⟨?same, ?insert, ?erase, ?removes⟩
  case same => exact fun fs' R' hR' hs => hs.answersAgree h hR'
  case insert => exact fun f hf hr R' hR' => answersAgree_insert h hR' hf hr
  case erase => exact fun f hf => answersAgree_erase h hf
  case removes => exact fun g hg R' hR' => answersAgree_withRemoves h hR' hg

/-- An extension that would add the alias of the device command, if it were not deprecated. -/
def deprecatedExtension : Feature := { restoringExtension with kind := .extension true none }

def versionFeatures : FeatureSet := .insert ∅ deviceVersion

/-- The deprecated extension does not bring its alias into the answer. -/
theorem answersAgree_deprecatedExtension :
    assemble deviceTypes deviceCommands versionFeatures .vulkan =
      .ok (deviceRegistry versionFeatures) ∧
    assemble deviceTypes deviceCommands (versionFeatures.insert deprecatedExtension) .vulkan =
      .ok (deviceRegistry (versionFeatures.insert deprecatedExtension)) ∧
    Request.Ignores {} deprecatedExtension ∧
    (∀ g, versionFeatures.replaced deprecatedExtension = some g → Request.Ignores {} g) ∧
    ∃ r, (deviceRegistry (versionFeatures.insert deprecatedExtension)).resolve {} = .ok r ∧
      r.tiers.scopeB = ["vkDestroyDevice"] ∧ r.aliases = ∅ := by
  have h : assemble deviceTypes deviceCommands versionFeatures .vulkan =
      .ok (deviceRegistry versionFeatures) := assemble_deviceRegistry (by decide)
  have h' : assemble deviceTypes deviceCommands (versionFeatures.insert deprecatedExtension)
      .vulkan = .ok (deviceRegistry (versionFeatures.insert deprecatedExtension)) :=
    assemble_deviceRegistry (by decide)
  have hi : Request.Ignores {} deprecatedExtension := .deprecated rfl
  have hn : ∀ g, versionFeatures.replaced deprecatedExtension = some g → Request.Ignores {} g :=
    nofun
  obtain ⟨r, r', hr, hr', ha⟩ := (noninterference_disabled _ _ _ _ _ h {}).2.1 _ hi hn _ h'
  have hrr := (resolve_eq_ok_iff.mp hr).2
  refine ⟨h, h', hi, hn, r', hr', ?_, ?_⟩
  · rw [← ha.tiers, ← hrr]
    decide +kernel
  · rw [← ha.aliases, ← hrr]
    decide +kernel

end Registry

end LoadTiers
