import LoadTiers.Proofs.Resolution.Partition

/-! # Load sequences

A load sequence is a tier without the loader of the tier. Only the global loader is ever left out:
the policy keeps the other loader out of the second scope, and the first scope has none of its own.
-/

namespace LoadTiers

namespace TierPolicy

variable {policy : TierPolicy} {types : TypeGraph} {name : String} {owner : Option String}

theorem classify_eq_scopeA_iff : policy.classify types name owner = .ok .scopeA ↔
    name ∉ policy.globalEntryPoints ∧ (name = policy.scopeBLoader ∨
      ∀ o, owner = some o → types.isDescendant o policy.scopeBRoot = .ok false) := by
  unfold classify
  split
  · next h => simp [h]
  · next h =>
    split
    · next hn =>
      subst hn
      simp [h]
    · next hn =>
      cases owner with
      | none => simp [h]
      | some o =>
        simp only [h, hn, not_false_eq_true, true_and, false_or, Option.some.injEq, forall_eq']
        cases types.isDescendant o policy.scopeBRoot with
        | error e => simp
        | ok b => cases b <;> simp [pure, Except.pure]

theorem ne_scopeBLoader_of_classify (h : policy.classify types name owner = .ok .scopeB) :
    name ≠ policy.scopeBLoader := by
  rintro rfl
  unfold classify at h
  split at h
  · cases h
  · rw [if_pos rfl] at h
    cases h

end TierPolicy

namespace Registry

variable {R : Registry} {q : Request} {ds : List Declaration} {c : String} {t : Tier}

theorem get_loadSequences (R : Registry) (q : Request) (t : Tier) :
    (R.answer q).loadSequences.get t =
      ((R.answer q).tiers.get t).filter fun n => !R.policy.isLoaderFor n t := by
  simp only [answer, bucketsOf, TierBuckets.get_ofTiers, List.filter_map, List.filter_filter]
  refine congrArg _ (List.filter_congr fun l _ => ?_)
  by_cases ht : l.tier = t <;> simp [ht]

theorem global_loadSequences (R : Registry) (q : Request) : (R.answer q).loadSequences.global =
    (R.answer q).tiers.global.erase R.policy.globalLoader := by
  have hn : (R.answer q).tiers.global.Nodup :=
    (pairwise_get_bucketsOf _ .global).imp String.ne_of_lt
  rw [hn.erase_eq_filter]
  exact get_loadSequences R q .global

theorem scopeA_loadSequences (R : Registry) (q : Request) :
    (R.answer q).loadSequences.scopeA = (R.answer q).tiers.scopeA :=
  (get_loadSequences R q .scopeA).trans (List.filter_eq_self.mpr fun _ _ => rfl)

theorem globalLoader_not_mem_global (R : Registry) (q : Request) :
    R.policy.globalLoader ∉ (R.answer q).loadSequences.global := by
  intro h
  have hf : R.policy.globalLoader ∈ (R.answer q).loadSequences.get .global := h
  rw [get_loadSequences] at hf
  simp [TierPolicy.isLoaderFor] at hf

section Built

variable (hb : Catalog.build ds R.types R.policy = .ok R.catalog)
include hb

/-- The policy finds the tier in which a name is listed from the declaration of that name. -/
theorem classify_of_mem_get_tiers (h : c ∈ (R.answer q).tiers.get t) :
    ∃ owner, definition? ds c = some (.canonical owner) ∧
      R.policy.classify R.types c owner = .ok t := by
  obtain ⟨e, he, hd, rfl, rfl⟩ := entry_of_mem_get_tiers (Catalog.coherent_of_build hb) h
  exact ⟨e.ownerType, hd ▸ Catalog.definition?_of_get? hb he, Catalog.classify_of_get? hb he⟩

theorem scopeBLoader_not_mem_scopeB : R.policy.scopeBLoader ∉ (R.answer q).tiers.scopeB := by
  intro h
  obtain ⟨owner, -, ht⟩ := classify_of_mem_get_tiers hb (t := .scopeB) h
  exact TierPolicy.ne_scopeBLoader_of_classify ht rfl

theorem scopeB_loadSequences :
    (R.answer q).loadSequences.scopeB = (R.answer q).tiers.scopeB := by
  refine (get_loadSequences R q .scopeB).trans (List.filter_eq_self.mpr fun n hn => ?_)
  have hne : n ≠ R.policy.scopeBLoader := by
    rintro rfl
    exact scopeBLoader_not_mem_scopeB hb hn
  simpa [TierPolicy.isLoaderFor] using hne

theorem mem_scopeA_iff : c ∈ (R.answer q).tiers.scopeA ↔
    (∃ t, c ∈ (R.answer q).tiers.get t) ∧ c ∉ R.policy.globalEntryPoints ∧
      (c = R.policy.scopeBLoader ∨ ∀ o, definition? ds c = some (.canonical (some o)) →
        R.types.isDescendant o R.policy.scopeBRoot = .ok false) := by
  constructor
  · intro h
    obtain ⟨owner, hd, ht⟩ := classify_of_mem_get_tiers hb (t := .scopeA) h
    obtain ⟨hg, hs⟩ := TierPolicy.classify_eq_scopeA_iff.mp ht
    refine ⟨⟨.scopeA, h⟩, hg, hs.imp_right fun hs o ho => hs o ?_⟩
    rw [hd, Option.some.injEq, Definition.canonical.injEq] at ho
    exact ho
  · rintro ⟨⟨t, h⟩, hg, hs⟩
    obtain ⟨owner, hd, ht⟩ := classify_of_mem_get_tiers hb h
    have ha : R.policy.classify R.types c owner = .ok .scopeA :=
      TierPolicy.classify_eq_scopeA_iff.mpr ⟨hg, hs.imp_right fun hs o ho => hs o (ho ▸ hd)⟩
    rw [ht, Except.ok.injEq] at ha
    subst ha
    exact h

end Built

/-- No load sequence but the global one differs from its tier, and that one lacks the global loader
only. The loader of the second scope is not in that scope, whatever its owner type. -/
theorem loadSequences_eq_erase (types : TypeGraph) (ds : List Declaration) (fs : FeatureSet)
    (policy : TierPolicy) (R : Registry) (h : assemble types ds fs policy = .ok R) (q : Request) :
    ∃ r, R.resolve q = .ok r ∧ r.loadSequences.scopeA = r.tiers.scopeA ∧
      r.loadSequences.scopeB = r.tiers.scopeB ∧
      r.loadSequences.global = r.tiers.global.erase policy.globalLoader ∧
      policy.globalLoader ∉ r.loadSequences.global ∧ policy.scopeBLoader ∉ r.tiers.scopeB := by
  obtain ⟨rfl, rfl, hb⟩ := build_of_assemble h
  exact ⟨R.answer q, resolve_of_assemble h q, scopeA_loadSequences R q, scopeB_loadSequences hb,
    global_loadSequences R q, globalLoader_not_mem_global R q, scopeBLoader_not_mem_scopeB hb⟩

def loaderCommands : List Declaration :=
  [⟨"vkDestroyDevice", .canonical (some "VkDevice")⟩,
    ⟨"vkGetDeviceProcAddr", .canonical (some "VkDevice")⟩,
    ⟨"vkGetInstanceProcAddr", .canonical (some "VkInstance")⟩]

def loaderVersion : Feature :=
  { deviceVersion with adds := .ofList (loaderCommands.map (·.name)) }

def loaderRegistry : Registry where
  types := deviceTypes
  catalog := .ofList [
    ⟨loaderCommands[0], "vkDestroyDevice", some "VkDevice", .scopeB⟩,
    ⟨loaderCommands[1], "vkGetDeviceProcAddr", some "VkDevice", .scopeA⟩,
    ⟨loaderCommands[2], "vkGetInstanceProcAddr", some "VkInstance", .global⟩]
  features := FeatureSet.insert ∅ loaderVersion
  policy := .vulkan

theorem assemble_loaderRegistry : assemble deviceTypes loaderCommands
    (FeatureSet.insert ∅ loaderVersion) .vulkan = .ok loaderRegistry := by
  have hc := (TypeGraph.checkAcyclic_eq_ok_iff namesParents_deviceTypes).mpr acyclic_deviceTypes
  have hb : Catalog.build loaderCommands deviceTypes .vulkan = .ok loaderRegistry.catalog := by
    decide +kernel
  have hu : forM (FeatureSet.insert ∅ loaderVersion).uses (Use.check loaderRegistry.catalog) =
      .ok () := by
    cbv
  rw [assemble_eq, hc, ok_bind, hb, ok_bind, hu]
  rfl

/-- The device loader is owned by devices, and stays out of their scope all the same. -/
theorem loadSequences_loaderRegistry :
    assemble deviceTypes loaderCommands (FeatureSet.insert ∅ loaderVersion) .vulkan =
      .ok loaderRegistry ∧
    ∃ r, loaderRegistry.resolve {} = .ok r ∧ r.tiers.global = ["vkGetInstanceProcAddr"] ∧
      r.loadSequences.global = [] ∧ "vkGetDeviceProcAddr" ∉ r.tiers.scopeB := by
  have h := assemble_loaderRegistry
  obtain ⟨r, hr, -, -, hg, -, hn⟩ := loadSequences_eq_erase _ _ _ _ _ h {}
  have ht : r.tiers.global = ["vkGetInstanceProcAddr"] := by
    rw [← (resolve_eq_ok_iff.mp hr).2]
    cbv
  refine ⟨h, r, hr, ht, ?_, hn⟩
  rw [hg, ht]
  exact List.erase_cons_head ..

/-- The loaders are not in their own load sequences, but for the global loader in the first scope.
It is loaded there through itself where the policy leaves it out of the global entry points, unless
it belongs to the second scope. -/
theorem globalLoader_mem_scopeA_iff (types : TypeGraph) (ds : List Declaration) (fs : FeatureSet)
    (policy : TierPolicy) (R : Registry) (h : assemble types ds fs policy = .ok R) (q : Request) :
    ∃ r, R.resolve q = .ok r ∧ policy.globalLoader ∉ r.loadSequences.global ∧
      policy.scopeBLoader ∉ r.loadSequences.scopeB ∧
      (policy.globalLoader ∈ r.loadSequences.scopeA ↔
        (∃ t, policy.globalLoader ∈ r.tiers.get t) ∧
        policy.globalLoader ∉ policy.globalEntryPoints ∧
        (policy.globalLoader = policy.scopeBLoader ∨
          ∀ o, definition? ds policy.globalLoader = some (.canonical (some o)) →
            types.isDescendant o policy.scopeBRoot = .ok false)) := by
  obtain ⟨rfl, rfl, hb⟩ := build_of_assemble h
  refine ⟨R.answer q, resolve_of_assemble h q, globalLoader_not_mem_global R q, ?scopeB, ?scopeA⟩
  case scopeB =>
    rw [scopeB_loadSequences hb]
    exact scopeBLoader_not_mem_scopeB hb
  case scopeA =>
    rw [scopeA_loadSequences]
    exact mem_scopeA_iff hb

/-- As a global entry point the loader is in neither of the sequences that it loads. -/
theorem globalLoader_loaderRegistry :
    assemble deviceTypes loaderCommands (FeatureSet.insert ∅ loaderVersion) .vulkan =
      .ok loaderRegistry ∧
    ∃ r, loaderRegistry.resolve {} = .ok r ∧
      "vkGetInstanceProcAddr" ∉ r.loadSequences.global ∧
      "vkGetInstanceProcAddr" ∉ r.loadSequences.scopeA := by
  have h := assemble_loaderRegistry
  obtain ⟨r, hr, hg, -, ha⟩ := globalLoader_mem_scopeA_iff _ _ _ _ _ h {}
  exact ⟨h, r, hr, hg, fun hm => (ha.mp hm).2.1 (by decide)⟩

/-- A policy with another global loader, which is none of its global entry points. -/
def bootstrapPolicy : TierPolicy := { globalLoader := "vkBootstrap" }

def bootstrapCommands : List Declaration := [⟨"vkBootstrap", .canonical none⟩]

def bootstrapVersion : Feature := { deviceVersion with adds := .ofList ["vkBootstrap"] }

def bootstrapRegistry : Registry where
  types := ∅
  catalog := .ofList (bootstrapCommands.map (⟨·, "vkBootstrap", none, .scopeA⟩))
  features := FeatureSet.insert ∅ bootstrapVersion
  policy := bootstrapPolicy

/-- Here the global loader is to be loaded through itself. -/
theorem globalLoader_mem_bootstrapRegistry :
    assemble ∅ bootstrapCommands (FeatureSet.insert ∅ bootstrapVersion) bootstrapPolicy =
      .ok bootstrapRegistry ∧
    ∃ r, bootstrapRegistry.resolve {} = .ok r ∧
      bootstrapPolicy.globalLoader ∈ r.loadSequences.scopeA := by
  have h : assemble ∅ bootstrapCommands (FeatureSet.insert ∅ bootstrapVersion) bootstrapPolicy =
      .ok bootstrapRegistry := by
    cbv
  exact ⟨h, _, resolve_of_assemble h {}, by decide +kernel⟩

end Registry

end LoadTiers
