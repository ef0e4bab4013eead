import LoadTiers.Proofs.Uses
import Mathlib.Data.Set.Lattice

/-! # What a request enables

The features and names that a request enables, as sets: names that API versions add and none of them
removes, along with the names that extensions add. The uses that a request has checked are those of
the enabled features, but for removes of extensions.
-/

namespace LoadTiers.Registry

variable {R : Registry} {q : Request} {f : Feature} {u : Use} {n : String}

/-- The API versions that the request admits and that have its flavor. -/
def versionSet (R : Registry) (q : Request) : Set Feature :=
  {f | R.features.apiVersion? f.name = some f ∧ q.version.admits f.version ∧ q.flavor ∈ f.flavors}

/-- The extensions that the request selects, that have its flavor and are not deprecated. -/
def extensionSet (R : Registry) (q : Request) : Set Feature :=
  {f | R.features.extension? f.name = some f ∧ q.extensions.selects f.name ∧
    q.flavor ∈ f.flavors ∧ ¬ f.isDeprecated}

/-- The names that the enabled features add, without what the API versions among them remove. -/
def rawSet (R : Registry) (q : Request) : Set String :=
  ((⋃ f ∈ R.versionSet q, {n | n ∈ f.adds}) \ ⋃ f ∈ R.versionSet q, {n | n ∈ f.removes}) ∪
    ⋃ f ∈ R.extensionSet q, {n | n ∈ f.adds}

theorem mem_enabledVersions : f ∈ R.enabledVersions q ↔ f ∈ R.versionSet q := by
  rw [enabledVersions, List.mem_filter, FeatureSet.mem_apiVersions]
  simp [versionSet, Request.enablesVersion, Feature.supports]

theorem mem_enabledExtensions : f ∈ R.enabledExtensions q ↔ f ∈ R.extensionSet q := by
  rw [enabledExtensions, List.mem_filter, FeatureSet.mem_extensions]
  simp [extensionSet, Request.enablesExtension, Feature.supports, and_assoc]

theorem mem_foldl_union {α : Type} {names : α → NameSet} {l : List α} {s : NameSet} :
    n ∈ l.foldl (fun s x => s ∪ names x) s ↔ n ∈ s ∨ ∃ x ∈ l, n ∈ names x := by
  induction l generalizing s with
  | nil => simp
  | cons x l ih => rw [List.foldl_cons, ih, NameSet.mem_union, List.exists_mem_cons_iff, or_assoc]

theorem mem_addsOf {fs : List Feature} : n ∈ addsOf fs ↔ ∃ f ∈ fs, n ∈ f.adds :=
  mem_foldl_union.trans (or_iff_right NameSet.not_mem_empty)

theorem mem_removesOf {fs : List Feature} : n ∈ removesOf fs ↔ ∃ f ∈ fs, n ∈ f.removes :=
  mem_foldl_union.trans (or_iff_right NameSet.not_mem_empty)

theorem mem_rawNames : n ∈ R.rawNames q ↔ n ∈ R.rawSet q := by
  simp only [rawNames, rawSet, NameSet.mem_union, NameSet.mem_filter, mem_addsOf, mem_removesOf,
    mem_enabledVersions, mem_enabledExtensions, decide_not, Bool.not_eq_true',
    decide_eq_false_iff_not, Set.mem_union, Set.mem_sdiff, Set.mem_iUnion, Set.mem_ofPred_eq,
    exists_prop]

def Uses (R : Registry) (q : Request) (u : Use) : Prop :=
  u.feature ∈ R.versionSet q ∧ u.name ∈ u.names ∨
    u.feature ∈ R.extensionSet q ∧ u.removal = false ∧ u.name ∈ u.names

/-- The uses that a request has checked, in their order. -/
def uses (R : Registry) (q : Request) : List Use :=
  (R.enabledVersions q).flatMap (·.uses) ++ (R.enabledExtensions q).flatMap (·.usesOf false)

theorem mem_uses : u ∈ R.uses q ↔ R.Uses q u := by
  simp only [uses, Uses, List.mem_append, List.mem_flatMap, Feature.mem_uses, Feature.mem_usesOf,
    mem_enabledVersions, mem_enabledExtensions]
  constructor
  · rintro (⟨f, hf, rfl, hn⟩ | ⟨f, hf, rfl, hn⟩)
    · exact .inl ⟨hf, hn⟩
    · exact .inr ⟨hf, hn⟩
  · rintro (⟨hf, hn⟩ | ⟨hf, hn⟩)
    · exact .inl ⟨_, hf, rfl, hn⟩
    · exact .inr ⟨_, hf, rfl, hn⟩

theorem uses_pairwise (R : Registry) (q : Request) : (R.uses q).Pairwise Use.Precedes := by
  refine List.pairwise_append.mpr ⟨?versions, ?extensions, ?kinds⟩
  case versions =>
    exact pairwise_flatMap_uses (R.features.apiVersions_pairwise.filter _) Feature.uses_pairwise
      fun f u hu => (Feature.mem_uses.mp hu).1
  case extensions =>
    exact pairwise_flatMap_uses (R.features.extensions_pairwise.filter _)
      (fun f => f.usesOf_pairwise false) fun f u hu => (Feature.mem_usesOf.mp hu).1
  case kinds =>
    intro u hu v hv
    obtain ⟨f, hf, hu⟩ := List.mem_flatMap.mp hu
    obtain ⟨g, hg, hv⟩ := List.mem_flatMap.mp hv
    rw [Feature.mem_uses] at hu
    rw [Feature.mem_usesOf] at hv
    refine .feature (.kind ?_ ?_)
    · exact hu.1 ▸ FeatureSet.isExtension_of_mem_apiVersions (List.mem_filter.mp hf).1
    · exact hv.1 ▸ FeatureSet.isExtension_of_mem_extensions (List.mem_filter.mp hg).1

theorem checkEnabled_eq : R.checkEnabled q = forM (R.uses q) (Use.check R.catalog) := by
  rw [checkEnabled, uses, List.forM_append, forM_flatMap, forM_flatMap]
  simp only [← checkReferences_eq, ← requireAll_adds, List.forM_eq_forM]

end LoadTiers.Registry
