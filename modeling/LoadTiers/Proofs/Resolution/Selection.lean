import LoadTiers.Proofs.Resolution.Dependence
import LoadTiers.Proofs.Resolution.Loading

/-! # Selections of extensions

Extensions only add names. So the answer to a union of selections lists what the answers to the
selections list together, and a larger selection loses nothing.
-/

namespace LoadTiers

/-- The names of two lists in their order, each of them once. -/
def sortedUnion (l l' : List String) : List String := (Roster.ofList (l ++ l') : NameSet).toList

theorem eq_sortedUnion {l l₁ l₂ : List String} (hl : l.Pairwise (· < ·))
    (h : ∀ n, n ∈ l ↔ n ∈ l₁ ∨ n ∈ l₂) : l = sortedUnion l₁ l₂ := by
  have hr : (⟨l, hl⟩ : NameSet) = .ofList (l₁ ++ l₂) := by
    apply NameSet.ext
    intro n
    rw [NameSet.mem_ofList, List.mem_append]
    exact h n
  exact congrArg Roster.toList hr

namespace Registry

variable {R : Registry} {flavor : String} {version : VersionRequest} {S T : NameSet} {c n : String}
  {t : Tier} {f : Feature}

theorem mem_extensionSet_union : f ∈ R.extensionSet ⟨flavor, version, .named (S ∪ T)⟩ ↔
    f ∈ R.extensionSet ⟨flavor, version, .named S⟩ ∨
      f ∈ R.extensionSet ⟨flavor, version, .named T⟩ := by
  simp only [extensionSet, ExtensionSelection.selects, Set.mem_ofPred_eq, decide_eq_true_eq,
    NameSet.mem_union]
  constructor
  · rintro ⟨hf, hn | hn, h⟩
    · exact .inl ⟨hf, hn, h⟩
    · exact .inr ⟨hf, hn, h⟩
  · rintro (⟨hf, hn, h⟩ | ⟨hf, hn, h⟩)
    · exact ⟨hf, .inl hn, h⟩
    · exact ⟨hf, .inr hn, h⟩

/-- What API versions add and remove is the same for every selection. -/
theorem mem_rawSet_union : n ∈ R.rawSet ⟨flavor, version, .named (S ∪ T)⟩ ↔
    n ∈ R.rawSet ⟨flavor, version, .named S⟩ ∨ n ∈ R.rawSet ⟨flavor, version, .named T⟩ := by
  have hv : ∀ U, R.versionSet ⟨flavor, version, .named U⟩ = R.versionSet ⟨flavor, version, .all⟩ :=
    fun _ => rfl
  simp only [mem_rawSet_iff, mem_extensionSet_union, hv]
  constructor
  · rintro (h | ⟨x, hx | hx, hn⟩)
    · exact .inl (.inl h)
    · exact .inl (.inr ⟨x, hx, hn⟩)
    · exact .inr (.inr ⟨x, hx, hn⟩)
  · rintro ((h | ⟨x, hx, hn⟩) | (h | ⟨x, hx, hn⟩))
    · exact .inl h
    · exact .inr ⟨x, .inl hx, hn⟩
    · exact .inl h
    · exact .inr ⟨x, .inr hx, hn⟩

theorem aliasSet_union : R.aliasSet ⟨flavor, version, .named (S ∪ T)⟩ c =
    R.aliasSet ⟨flavor, version, .named S⟩ c ∪ R.aliasSet ⟨flavor, version, .named T⟩ c := by
  ext n
  simp only [aliasSet, mem_rawSet_union, Set.mem_ofPred_eq, Set.mem_union, or_and_right]

theorem contains_aliases_union :
    (R.answer ⟨flavor, version, .named (S ∪ T)⟩).aliases.contains c ↔
      (R.answer ⟨flavor, version, .named S⟩).aliases.contains c ∨
        (R.answer ⟨flavor, version, .named T⟩).aliases.contains c := by
  simp only [contains_aliases_answer, aliasSet_union, Set.union_nonempty]

theorem aliasesOf_union : (R.answer ⟨flavor, version, .named (S ∪ T)⟩).aliases.aliasesOf c =
    (R.answer ⟨flavor, version, .named S⟩).aliases.aliasesOf c ∪
      (R.answer ⟨flavor, version, .named T⟩).aliases.aliasesOf c := by
  apply NameSet.ext
  intro n
  simp only [NameSet.mem_union, mem_aliasesOf_answer, aliasSet_union, Set.mem_union]

theorem unknownExtensions_union :
    (R.answer ⟨flavor, version, .named (S ∪ T)⟩).unknownExtensions =
      sortedUnion (R.answer ⟨flavor, version, .named S⟩).unknownExtensions
        (R.answer ⟨flavor, version, .named T⟩).unknownExtensions := by
  apply eq_sortedUnion
  · exact (S ∪ T).sorted.filter _
  · intro n
    simp only [answer, unknownExtensions, List.mem_filter, ← NameSet.mem_def, NameSet.mem_union,
      or_and_right]

section Coherent

variable (hc : R.catalog.Coherent)
include hc

theorem mem_tiers_union : n ∈ (R.answer ⟨flavor, version, .named (S ∪ T)⟩).tiers.get t ↔
    n ∈ (R.answer ⟨flavor, version, .named S⟩).tiers.get t ∨
      n ∈ (R.answer ⟨flavor, version, .named T⟩).tiers.get t := by
  simp only [mem_get_tiers_answer hc, mem_rawSet_union, or_and_right, exists_or]

theorem tiers_union : (R.answer ⟨flavor, version, .named (S ∪ T)⟩).tiers.get t =
    sortedUnion ((R.answer ⟨flavor, version, .named S⟩).tiers.get t)
      ((R.answer ⟨flavor, version, .named T⟩).tiers.get t) :=
  eq_sortedUnion (pairwise_get_bucketsOf _ t) fun _ => mem_tiers_union hc

theorem loadSequences_union :
    (R.answer ⟨flavor, version, .named (S ∪ T)⟩).loadSequences.get t =
      sortedUnion ((R.answer ⟨flavor, version, .named S⟩).loadSequences.get t)
        ((R.answer ⟨flavor, version, .named T⟩).loadSequences.get t) := by
  simp only [get_loadSequences]
  apply eq_sortedUnion
  · exact (pairwise_get_bucketsOf _ t).filter _
  · intro n
    simp only [List.mem_filter, mem_tiers_union hc, or_and_right]

theorem tiers_mono (h : ∀ x ∈ S, x ∈ T)
    (hn : n ∈ (R.answer ⟨flavor, version, .named S⟩).tiers.get t) :
    n ∈ (R.answer ⟨flavor, version, .named T⟩).tiers.get t := by
  have hu : S ∪ T = T := by
    apply NameSet.ext
    intro x
    rw [NameSet.mem_union]
    exact or_iff_right_of_imp (h x)
  rw [← hu, mem_tiers_union hc]
  exact .inl hn

end Coherent

def extensionNames (R : Registry) : NameSet := .ofList (R.features.extensions.map (·.name))

theorem answer_extensionNames : R.answer ⟨flavor, version, .named R.extensionNames⟩ =
    R.answer ⟨flavor, version, .all⟩ := by
  have hn : ∀ f ∈ R.features.extensions, f.name ∈ R.extensionNames := by
    intro f hf
    exact NameSet.mem_ofList.mpr (List.mem_map_of_mem hf)
  change _ = { R.answer ⟨flavor, version, .all⟩ with requestedVersion := toString version }
  apply answer_congr
  · exact fun _ _ => rfl
  · intro f hf
    simp [Request.enablesExtension, ExtensionSelection.selects, hn f hf]
  · rfl
  · apply List.filter_eq_nil_iff.mpr
    intro n hm
    obtain ⟨f, hf, rfl⟩ := List.mem_map.mp (NameSet.mem_ofList.mp hm)
    rw [FeatureSet.mem_extensions.mp hf]
    exact Bool.false_ne_true

/-- The answer to a union of selections is the union of the answers, so that a larger selection
keeps all entry points in their tiers. To select all extensions is to name them all. -/
theorem resolve_union (types : TypeGraph) (ds : List Declaration) (fs : FeatureSet)
    (policy : TierPolicy) (R : Registry) (h : assemble types ds fs policy = .ok R)
    (flavor : String) (version : VersionRequest) :
    ∃ r : NameSet → Resolution, (∀ S, R.resolve ⟨flavor, version, .named S⟩ = .ok (r S)) ∧
      (∀ S T t, (r (S ∪ T)).tiers.get t = sortedUnion ((r S).tiers.get t) ((r T).tiers.get t)) ∧
      (∀ S T t, (r (S ∪ T)).loadSequences.get t =
        sortedUnion ((r S).loadSequences.get t) ((r T).loadSequences.get t)) ∧
      (∀ S T c, ((r (S ∪ T)).aliases.contains c ↔
          (r S).aliases.contains c ∨ (r T).aliases.contains c) ∧
        (r (S ∪ T)).aliases.aliasesOf c = (r S).aliases.aliasesOf c ∪ (r T).aliases.aliasesOf c) ∧
      (∀ S T, (r (S ∪ T)).unknownExtensions =
        sortedUnion (r S).unknownExtensions (r T).unknownExtensions) ∧
      (∀ S T, (∀ x ∈ S, x ∈ T) → ∀ c t, c ∈ (r S).tiers.get t →
        c ∈ (r T).tiers.get t ∧ ∀ t', c ∈ (r T).tiers.get t' → t' = t) ∧
      R.resolve ⟨flavor, version, .all⟩ = .ok (r R.extensionNames) := by
  obtain ⟨-, -, hb⟩ := build_of_assemble h
  have hc := Catalog.coherent_of_build hb
  refine ⟨fun S => R.answer ⟨flavor, version, .named S⟩, fun S => resolve_of_assemble h _,
    fun S T t => tiers_union hc, fun S T t => loadSequences_union hc,
    fun S T c => ⟨contains_aliases_union, aliasesOf_union⟩, fun S T => unknownExtensions_union,
    ?larger, ?all⟩
  case larger =>
    intro S T hST c t hm
    exact ⟨tiers_mono hc hST hm, fun t' ht' => tier_eq_of_mem_get_tiers hc ht' hm⟩
  case all =>
    rw [resolve_of_assemble h, ← answer_extensionNames]

def canonicalExtension : Feature :=
  { restoringExtension with name := "VK_EXT_device", adds := .ofList ["vkDestroyDevice"] }

def selectionFeatures : FeatureSet :=
  (FeatureSet.insert ∅ restoringExtension).insert canonicalExtension

/-- Either extension lists the command. Both together list it once, and keep the alias. -/
theorem resolve_selectionFeatures :
    assemble deviceTypes deviceCommands selectionFeatures .vulkan =
      .ok (deviceRegistry selectionFeatures) ∧
    ∃ r : NameSet → Resolution,
      (∀ S, (deviceRegistry selectionFeatures).resolve ⟨"vulkan", .latest, .named S⟩ = .ok (r S)) ∧
      (deviceRegistry selectionFeatures).resolve {} =
        .ok (r (.ofList ["VK_EXT_device"] ∪ .ofList ["VK_KHR_device"])) ∧
      (r (.ofList ["VK_EXT_device"] ∪ .ofList ["VK_KHR_device"])).tiers.scopeB =
        ["vkDestroyDevice"] ∧
      (r (.ofList ["VK_EXT_device"])).aliases = ∅ ∧
      (r (.ofList ["VK_EXT_device"] ∪ .ofList ["VK_KHR_device"])).aliases.aliasesOf
        "vkDestroyDevice" = .ofList ["vkDestroyDeviceKHR"] := by
  have h : assemble deviceTypes deviceCommands selectionFeatures .vulkan =
      .ok (deviceRegistry selectionFeatures) := assemble_deviceRegistry (by decide)
  obtain ⟨r, hr, ht, -, ha, -, -, hall⟩ := resolve_union _ _ _ _ _ h "vulkan" .latest
  have hn : (deviceRegistry selectionFeatures).extensionNames =
      .ofList ["VK_EXT_device"] ∪ .ofList ["VK_KHR_device"] := by decide
  have hx := (resolve_eq_ok_iff.mp (hr (.ofList ["VK_EXT_device"]))).2
  have hk := (resolve_eq_ok_iff.mp (hr (.ofList ["VK_KHR_device"]))).2
  have hxa : (r (.ofList ["VK_EXT_device"])).aliases = ∅ := by
    rw [← hx]
    decide +kernel
  refine ⟨h, r, hr, hn ▸ hall, ?_, hxa, ?_⟩
  · refine (ht _ _ .scopeB).trans ?_
    rw [← hx, ← hk]
    decide +kernel
  · rw [(ha _ _ _).2, hxa, ← hk]
    decide +kernel

end Registry

end LoadTiers
