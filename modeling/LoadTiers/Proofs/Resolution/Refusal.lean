import LoadTiers.Proofs.Acceptance
import LoadTiers.Proofs.Resolution.Enabled

/-! # Refused requests

A request is refused for the first use of a name without entry among those that it has checked.
Otherwise it is answered from the entries of the names that it enables. Accepted registries refuse
no request, as their features use no name without entry.
-/

namespace LoadTiers

theorem Catalog.mapM_require {catalog : Catalog} {ns : List String}
    (h : ∀ n ∈ ns, catalog.contains n) :
    ns.mapM (fun n => catalog.require n n) = .ok (ns.filterMap catalog.get?) := by
  induction ns with
  | nil => rfl
  | cons n ns ih =>
    rw [List.forall_mem_cons] at h
    obtain ⟨e, he⟩ := Option.isSome_iff_exists.mp h.1
    rw [List.mapM_cons, Catalog.require, he, ih h.2, List.filterMap_cons, he]
    rfl

namespace Registry

variable {R : Registry} {q : Request} {u : Use} {r : Resolution} {e : RegistryError} {n : String}

def rawEntries (R : Registry) (q : Request) : List EntryPoint :=
  (R.rawNames q).toList.filterMap R.catalog.get?

/-- The answer to a request that is not refused. -/
def answer (R : Registry) (q : Request) : Resolution :=
  let listed := (listings (R.rawEntries q)).toList
  { flavor := q.flavor
    requestedVersion := toString q.version
    tiers := bucketsOf listed
    loadSequences := bucketsOf (listed.filter fun l => !R.policy.isLoaderFor l.name l.tier)
    aliases := aliasTable (R.rawEntries q)
    apiVersions := .ofFeatures q.enablesVersion R.features.apiVersions
    extensions := .ofFeatures q.enablesExtension R.features.extensions
    unknownExtensions := R.unknownExtensions q
    flavorMatched := R.features.knowsFlavor q.flavor }

theorem Uses.features (h : R.Uses q u) : R.features.Uses u := by
  rcases h with ⟨h, hn⟩ | ⟨h, -, hn⟩
  · exact ⟨.inl h.1, hn⟩
  · exact ⟨.inr h.1, hn⟩

theorem exists_uses_of_mem_rawSet (h : n ∈ R.rawSet q) : ∃ u, R.Uses q u ∧ u.name = n := by
  simp only [rawSet, Set.mem_union, Set.mem_sdiff, Set.mem_iUnion, exists_prop] at h
  rcases h with ⟨⟨f, hf, hn⟩, -⟩ | ⟨f, hf, hn⟩
  · exact ⟨⟨f, false, n⟩, .inl ⟨hf, hn⟩, rfl⟩
  · exact ⟨⟨f, false, n⟩, .inr ⟨hf, rfl, hn⟩, rfl⟩

theorem checkEnabled_eq_ok_iff :
    R.checkEnabled q = .ok () ↔ ∀ u, R.Uses q u → R.catalog.contains u.name := by
  simp only [checkEnabled_eq, Use.forM_check_eq_ok_iff, mem_uses]

/-- Once the uses are checked, the names that are enabled have entries. -/
theorem resolve_eq (R : Registry) (q : Request) :
    R.resolve q = R.checkEnabled q >>= fun _ => .ok (R.answer q) := by
  rw [resolve]
  cases hc : R.checkEnabled q with
  | error e => rfl
  | ok _ =>
    have hn : ∀ n ∈ (R.rawNames q).toList, R.catalog.contains n := by
      intro n hn
      obtain ⟨u, hu, rfl⟩ := exists_uses_of_mem_rawSet (mem_rawNames.mp hn)
      exact checkEnabled_eq_ok_iff.mp hc u hu
    rw [ok_bind, ok_bind, Catalog.mapM_require hn]
    rfl

theorem resolve_eq_ok_iff : R.resolve q = .ok r ↔
    (∀ u, R.Uses q u → R.catalog.contains u.name) ∧ R.answer q = r := by
  rw [resolve_eq, bind_eq_ok_iff, ← checkEnabled_eq_ok_iff]
  constructor
  · rintro ⟨_, h, ha⟩
    exact ⟨h, Except.ok.inj ha⟩
  · rintro ⟨h, rfl⟩
    exact ⟨(), h, rfl⟩

theorem resolve_eq_error_iff : R.resolve q = .error e ↔
    ∃ u, IsFirst Use.Precedes (fun u => R.Uses q u ∧ ¬ R.catalog.contains u.name) u ∧
      e = .danglingReference u.name u.feature.name := by
  rw [resolve_eq, bind_eq_error_iff, checkEnabled_eq,
    Use.forM_check_eq_error_iff (R.uses_pairwise q)]
  simp [mem_uses]

-- What a feature adds is looked for before what it removes.
example : checkReferences ∅
    { name := "1.0", kind := .apiVersion, adds := .ofList ["b"], removes := .ofList ["a"] } =
      .error (.danglingReference "b" "1.0") := by
  decide +kernel

theorem exists_resolve_eq_ok_iff :
    (∃ r, R.resolve q = .ok r) ↔ ∀ u, R.Uses q u → R.catalog.contains u.name := by
  simp [resolve_eq_ok_iff]

theorem exists_resolve_eq_error_iff :
    (∃ e, R.resolve q = .error e) ↔ ∃ u, R.Uses q u ∧ ¬ R.catalog.contains u.name := by
  rw [← not_iff_not]
  push Not
  rw [← exists_resolve_eq_ok_iff]
  cases R.resolve q <;> simp

theorem resolve_of_assemble {types : TypeGraph} {ds : List Declaration} {fs : FeatureSet}
    {policy : TierPolicy} (h : assemble types ds fs policy = .ok R) (q : Request) :
    R.resolve q = .ok (R.answer q) := by
  obtain ⟨-, -, hu, hR⟩ := of_assemble h
  have hf : R.features = fs := by rw [hR]
  exact resolve_eq_ok_iff.mpr ⟨fun u hq => hu u (hf ▸ hq.features), rfl⟩

theorem exists_resolve_of_assemble {types : TypeGraph} {ds : List Declaration} {fs : FeatureSet}
    {policy : TierPolicy} (h : assemble types ds fs policy = .ok R) (q : Request) :
    ∃ r, R.resolve q = .ok r :=
  ⟨_, resolve_of_assemble h q⟩

theorem exists_uses_iff (P : String → Prop) : (∃ u, R.Uses q u ∧ P u.name) ↔
    (∃ f ∈ R.versionSet q, ∃ n, (n ∈ f.adds ∨ n ∈ f.removes) ∧ P n) ∨
      ∃ f ∈ R.extensionSet q, ∃ n ∈ f.adds, P n := by
  constructor
  · rintro ⟨⟨f, removal, n⟩, ⟨hf, hn⟩ | ⟨hf, rfl, hn⟩, hP⟩
    · cases removal with
      | false => exact .inl ⟨f, hf, n, .inl hn, hP⟩
      | true => exact .inl ⟨f, hf, n, .inr hn, hP⟩
    · exact .inr ⟨f, hf, n, hn, hP⟩
  · rintro (⟨f, hf, n, hn | hn, hP⟩ | ⟨f, hf, n, hn, hP⟩)
    · exact ⟨⟨f, false, n⟩, .inl ⟨hf, hn⟩, hP⟩
    · exact ⟨⟨f, true, n⟩, .inl ⟨hf, hn⟩, hP⟩
    · exact ⟨⟨f, false, n⟩, .inr ⟨hf, rfl, hn⟩, hP⟩

theorem contains_of_harmless (h : ∀ u, R.features.Uses u → ¬ R.catalog.contains u.name →
    u.feature ∉ R.versionSet q ∧ (u.feature ∈ R.extensionSet q → u.removal)) (hu : R.Uses q u) :
    R.catalog.contains u.name := by
  by_contra hc
  obtain ⟨hv, he⟩ := h u hu.features hc
  rcases hu with ⟨hf, -⟩ | ⟨hf, hr, -⟩
  · exact hv hf
  · exact Bool.false_ne_true (hr.symm.trans (he hf))

/-- Accepted registries answer every request. Any other refuses one exactly if an enabled API
version adds or removes a name without entry, or an enabled extension adds one, and it does so for
the first such use. Other uses of names without entry are never in the way. -/
theorem refusal_exact :
    (∀ types ds fs policy R, assemble types ds fs policy = .ok R →
      ∀ q, ∃ r, R.resolve q = .ok r) ∧
    ∀ (R : Registry) (q : Request),
      ((∃ e, R.resolve q = .error e) ↔
        (∃ f ∈ R.versionSet q, ∃ n, (n ∈ f.adds ∨ n ∈ f.removes) ∧ ¬ R.catalog.contains n) ∨
          ∃ f ∈ R.extensionSet q, ∃ n ∈ f.adds, ¬ R.catalog.contains n) ∧
      (∀ e, R.resolve q = .error e ↔
        ∃ u, IsFirst Use.Precedes (fun u => R.Uses q u ∧ ¬ R.catalog.contains u.name) u ∧
          e = .danglingReference u.name u.feature.name) ∧
      ((∀ u, R.features.Uses u → ¬ R.catalog.contains u.name →
          u.feature ∉ R.versionSet q ∧ (u.feature ∈ R.extensionSet q → u.removal)) →
        ∃ r, R.resolve q = .ok r) := by
  refine ⟨fun types ds fs policy R => exists_resolve_of_assemble, fun R q => ?_⟩
  refine ⟨?undeclared, fun e => resolve_eq_error_iff, ?harmless⟩
  case undeclared =>
    rw [exists_resolve_eq_error_iff]
    exact exists_uses_iff fun n => ¬ R.catalog.contains n
  case harmless => exact fun h => exists_resolve_eq_ok_iff.mpr fun u => contains_of_harmless h

def strayExtension : Feature where
  name := "VK_KHR_stray"
  kind := .extension false none
  flavors := .ofList ["vulkan"]
  adds := .ofList ["vkDestroyDevice"]
  removes := .ofList ["vkStray"]

/-- A registry whose stray removals no assembly lets through. -/
def strayRegistry : Registry where
  types := deviceTypes
  catalog := .ofList [⟨deviceCommands[1], "vkDestroyDevice", some "VkDevice", .scopeB⟩]
  features := (FeatureSet.insert ∅ strayVersion).insert strayExtension
  policy := .vulkan

theorem uses_strayRegistry : strayRegistry.features.uses =
    [⟨strayVersion, false, "vkDestroyDevice"⟩, ⟨strayVersion, true, "vkStray"⟩,
      ⟨strayExtension, false, "vkDestroyDevice"⟩, ⟨strayExtension, true, "vkStray"⟩] := by
  cbv

theorem exists_assemble_deviceVersion : ∃ R,
    assemble deviceTypes deviceCommands (FeatureSet.insert ∅ deviceVersion) .vulkan = .ok R := by
  refine (exists_assemble_eq_ok_iff namesParents_deviceTypes).mpr
    ⟨acyclic_deviceTypes, chainResolves_deviceCommands, fun u hu => ?_⟩
  have hs : (FeatureSet.insert ∅ deviceVersion).uses =
      [⟨deviceVersion, false, "vkDestroyDevice"⟩] := by cbv
  rw [← mem_featureSet_uses, hs, List.mem_singleton] at hu
  subst hu
  exact ⟨deviceCommands[1], by simp, rfl⟩

/-- Below the stray API version only the extension is enabled, which may remove what it wants. -/
theorem resolve_strayRegistry :
    (∃ R, assemble deviceTypes deviceCommands (FeatureSet.insert ∅ deviceVersion) .vulkan = .ok R ∧
      ∃ r, R.resolve {} = .ok r) ∧
    strayExtension ∈ strayRegistry.extensionSet { version := .upTo ⟨0, 9⟩ } ∧
    ¬ strayRegistry.catalog.contains "vkStray" ∧
    ∃ r, strayRegistry.resolve { version := .upTo ⟨0, 9⟩ } = .ok r := by
  obtain ⟨R, hR⟩ := exists_assemble_deviceVersion
  refine ⟨⟨R, hR, refusal_exact.1 _ _ _ _ R hR {}⟩, ?_, by decide, ?_⟩
  · exact ⟨by decide, by decide, by decide, by decide⟩
  · refine (refusal_exact.2 strayRegistry _).2.2 fun u hu hc => ?_
    rw [← mem_featureSet_uses, uses_strayRegistry] at hu
    simp only [List.mem_cons, List.not_mem_nil, or_false] at hu
    rcases hu with rfl | rfl | rfl | rfl
    · exact absurd (by decide) hc
    · exact ⟨fun h => absurd h.2.1 (by decide), fun _ => rfl⟩
    · exact absurd (by decide) hc
    · exact ⟨fun h => absurd h.1 (by decide), fun _ => rfl⟩

end Registry

end LoadTiers
