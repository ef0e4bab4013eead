import LoadTiers.Proofs.Catalog
import LoadTiers.Proofs.Markup.Types
import LoadTiers.Proofs.Uses

/-! # Acceptance of registries

A registry is accepted exactly if its type graph is acyclic, all alias chains resolve and all used
names are declared. These conditions are checked one after the other, and the first of them that
fails decides the error.
-/

namespace LoadTiers

def FeatureSet.Uses (s : FeatureSet) (u : Use) : Prop :=
  (s.apiVersion? u.feature.name = some u.feature ∨ s.extension? u.feature.name = some u.feature) ∧
    u.name ∈ u.names

/-- The uses of all features, in the order of their check. -/
def FeatureSet.uses (s : FeatureSet) : List Use := (s.apiVersions ++ s.extensions).flatMap (·.uses)

namespace Registry

variable {types : TypeGraph} {ds : List Declaration} {fs : FeatureSet} {policy : TierPolicy}
  {catalog : Catalog} {R : Registry} {e : RegistryError}

theorem mem_featureSet_uses {u : Use} : u ∈ fs.uses ↔ fs.Uses u := by
  simp only [FeatureSet.uses, List.mem_flatMap, List.mem_append, FeatureSet.mem_apiVersions,
    FeatureSet.mem_extensions, Feature.mem_uses, FeatureSet.Uses]
  constructor
  · rintro ⟨f, hf, rfl, hn⟩
    exact ⟨hf, hn⟩
  · rintro ⟨hf, hn⟩
    exact ⟨u.feature, hf, rfl, hn⟩

theorem of_uses {P : String → Prop} (h : ∀ f ∈ fs.versions.toList ++ fs.extensions,
    ∀ n ∈ f.adds.toList ++ f.removes.toList, P n) : ∀ u, fs.Uses u → P u.name := by
  rintro ⟨f, removal, n⟩ ⟨hf, hn⟩
  apply h f
  · rw [List.mem_append]
    exact hf.imp (fun hf => (Roster.get?_eq_some_iff.mp hf).1) FeatureSet.mem_extensions.mpr
  · rw [List.mem_append]
    cases removal with
    | false => exact .inl hn
    | true => exact .inr hn

theorem featureSet_uses_pairwise (fs : FeatureSet) : fs.uses.Pairwise Use.Precedes := by
  refine pairwise_flatMap_uses ?_ Feature.uses_pairwise fun f u hu => (Feature.mem_uses.mp hu).1
  refine List.pairwise_append.mpr ⟨fs.apiVersions_pairwise, fs.extensions_pairwise, ?_⟩
  intro f hf g hg
  exact .kind (FeatureSet.isExtension_of_mem_apiVersions hf)
    (FeatureSet.isExtension_of_mem_extensions hg)

theorem forM_checkReferences (fs : FeatureSet) :
    (fs.apiVersions ++ fs.extensions).forM (checkReferences catalog) =
      forM fs.uses (Use.check catalog) := by
  rw [List.forM_eq_forM, FeatureSet.uses, forM_flatMap]
  simp only [← checkReferences_eq]

theorem assemble_eq (types : TypeGraph) (ds : List Declaration) (fs : FeatureSet)
    (policy : TierPolicy) : assemble types ds fs policy =
      types.checkAcyclic >>= fun _ => Catalog.build ds types policy >>= fun catalog =>
        forM fs.uses (Use.check catalog) >>= fun _ =>
          .ok { types, catalog, features := fs, policy } := by
  simp only [← forM_checkReferences]
  rfl

theorem of_assemble (h : assemble types ds fs policy = .ok R) :
    types.checkAcyclic = .ok () ∧ Catalog.build ds types policy = .ok R.catalog ∧
      (∀ u, fs.Uses u → R.catalog.contains u.name) ∧
      R = { types, catalog := R.catalog, features := fs, policy } := by
  rw [assemble_eq, bind_eq_ok_iff] at h
  obtain ⟨_, hc, h⟩ := h
  obtain ⟨catalog, hb, h⟩ := bind_eq_ok_iff.mp h
  obtain ⟨_, hu, h⟩ := bind_eq_ok_iff.mp h
  cases h
  refine ⟨hc, hb, fun u h => ?_, rfl⟩
  exact Use.forM_check_eq_ok_iff.mp hu u (mem_featureSet_uses.mpr h)

theorem assemble_of_contains (hc : types.checkAcyclic = .ok ())
    (hb : Catalog.build ds types policy = .ok catalog)
    (hu : ∀ u, fs.Uses u → catalog.contains u.name) :
    assemble types ds fs policy = .ok { types, catalog, features := fs, policy } := by
  have hf : forM fs.uses (Use.check catalog) = .ok () :=
    Use.forM_check_eq_ok_iff.mpr fun u h => hu u (mem_featureSet_uses.mp h)
  rw [assemble_eq, hc, ok_bind, hb, ok_bind, hf, ok_bind]

theorem build_of_assemble (h : assemble types ds fs policy = .ok R) : R.types = types ∧
    R.policy = policy ∧ Catalog.build ds R.types R.policy = .ok R.catalog := by
  obtain ⟨-, hb, -, hR⟩ := of_assemble h
  rw [hR]
  exact ⟨rfl, rfl, hb⟩

theorem assemble_of_cyclic (hg : types.NamesParents) (h : ¬ types.Acyclic) (ds : List Declaration)
    (fs : FeatureSet) (policy : TierPolicy) : ∃ t, TypeGraph.Ancestor types t t ∧
      assemble types ds fs policy = .error (.cyclicTypeGraph t) := by
  obtain ⟨t, ht, hc⟩ := TypeGraph.exists_checkAcyclic_eq_error hg h
  exact ⟨t, hc, by rw [assemble_eq, ht]; rfl⟩

theorem assemble_of_acyclic (hg : types.NamesParents) (h : types.Acyclic) :
    assemble types ds fs policy = Catalog.build ds types policy >>= fun catalog =>
      forM fs.uses (Use.check catalog) >>= fun _ =>
        .ok { types, catalog, features := fs, policy } := by
  rw [assemble_eq, (TypeGraph.checkAcyclic_eq_ok_iff hg).mpr h, ok_bind]

theorem assemble_of_build (hg : types.NamesParents) (h : types.Acyclic)
    (hb : Catalog.build ds types policy = .ok catalog) :
    ((∀ u, fs.Uses u → ∃ d ∈ ds, d.name = u.name) ∧ ∃ R, assemble types ds fs policy = .ok R) ∨
      ∃ u, IsFirst Use.Precedes (fun u => fs.Uses u ∧ ¬ ∃ d ∈ ds, d.name = u.name) u ∧
        assemble types ds fs policy = .error (.danglingReference u.name u.feature.name) := by
  rw [assemble_of_acyclic hg h, hb, ok_bind]
  simp only [← Catalog.contains_of_build hb, ← mem_featureSet_uses]
  cases hu : forM fs.uses (Use.check catalog) with
  | ok _ => exact .inl ⟨Use.forM_check_eq_ok_iff.mp hu, _, rfl⟩
  | error e =>
    obtain ⟨u, hf, rfl⟩ := (Use.forM_check_eq_error_iff (featureSet_uses_pairwise fs)).mp hu
    exact .inr ⟨u, hf, rfl⟩

/-- A registry is accepted exactly if its graph is acyclic, its chains resolve, and the names that
its features use are declared. -/
theorem exists_assemble_eq_ok_iff (hg : types.NamesParents) :
    (∃ R, assemble types ds fs policy = .ok R) ↔ types.Acyclic ∧
      (∀ d ∈ ds, ChainResolves ds d.name) ∧ ∀ u, fs.Uses u → ∃ d ∈ ds, d.name = u.name := by
  constructor
  · rintro ⟨R, hR⟩
    obtain ⟨hc, hb, hu, -⟩ := of_assemble hR
    have ha := (TypeGraph.checkAcyclic_eq_ok_iff hg).mp hc
    refine ⟨ha, ?_, fun u h => (Catalog.contains_of_build hb).mp (hu u h)⟩
    rcases Catalog.build_spec ha policy ds with ⟨h, -⟩ | ⟨n, -, e, -, he⟩
    · exact h
    · rw [hb] at he
      cases he
  · rintro ⟨ha, hc, hu⟩
    rcases Catalog.build_spec ha policy ds with ⟨-, catalog, hb⟩ | ⟨n, ⟨⟨⟨d, hd, rfl⟩, hn⟩, -⟩, -⟩
    · rcases assemble_of_build hg ha hb with ⟨-, h⟩ | ⟨u, ⟨⟨h, hn⟩, -⟩, -⟩
      · exact h
      · exact absurd (hu u h) hn
    · exact absurd (hc d hd) hn

theorem assemble_of_not_chainResolves (hg : types.NamesParents) (ha : types.Acyclic)
    (hn : ¬ ∀ d ∈ ds, ChainResolves ds d.name) (fs : FeatureSet) (policy : TierPolicy) :
    ∃ n, IsFirst (· < ·) (fun n => (∃ d ∈ ds, d.name = n) ∧ ¬ ChainResolves ds n) n ∧
      ∃ e, ChainError ds n e ∧ assemble types ds fs policy = .error e := by
  rcases Catalog.build_spec ha policy ds with ⟨h, -⟩ | ⟨n, hf, e, he, hb⟩
  · exact absurd h hn
  · refine ⟨n, hf, e, he, ?_⟩
    rw [assemble_of_acyclic hg ha, hb, error_bind]

theorem assemble_of_undeclared (hg : types.NamesParents) (ha : types.Acyclic)
    (hc : ∀ d ∈ ds, ChainResolves ds d.name) (hn : ¬ ∀ u, fs.Uses u → ∃ d ∈ ds, d.name = u.name)
    (policy : TierPolicy) :
    ∃ u, IsFirst Use.Precedes (fun u => fs.Uses u ∧ ¬ ∃ d ∈ ds, d.name = u.name) u ∧
      assemble types ds fs policy = .error (.danglingReference u.name u.feature.name) := by
  rcases Catalog.build_spec ha policy ds with ⟨-, catalog, hb⟩ | ⟨n, ⟨⟨⟨d, hd, rfl⟩, h⟩, -⟩, -⟩
  · rcases assemble_of_build hg ha hb with ⟨h, -⟩ | h
    · exact absurd h hn
    · exact h
  · exact absurd (hc d hd) h

/-- Documents give graphs without empty parents. For such graphs acceptance is exact, and a refusal
is for the first of the three conditions that fails, at the first place where it does. -/
theorem assemble_exact :
    (∀ nodes, (typeGraph nodes).NamesParents) ∧
    ∀ types : TypeGraph, types.NamesParents →
      ∀ (ds : List Declaration) (fs : FeatureSet) (policy : TierPolicy),
        ((∃ R, assemble types ds fs policy = .ok R) ↔ types.Acyclic ∧
          (∀ d ∈ ds, ChainResolves ds d.name) ∧ ∀ u, fs.Uses u → ∃ d ∈ ds, d.name = u.name) ∧
        (¬ types.Acyclic → ∃ t, TypeGraph.Ancestor types t t ∧
          assemble types ds fs policy = .error (.cyclicTypeGraph t)) ∧
        (types.Acyclic → (¬ ∀ d ∈ ds, ChainResolves ds d.name) →
          ∃ n, IsFirst (· < ·) (fun n => (∃ d ∈ ds, d.name = n) ∧ ¬ ChainResolves ds n) n ∧
            ∃ e, ChainError ds n e ∧ assemble types ds fs policy = .error e) ∧
        (types.Acyclic → (∀ d ∈ ds, ChainResolves ds d.name) →
          (¬ ∀ u, fs.Uses u → ∃ d ∈ ds, d.name = u.name) →
          ∃ u, IsFirst Use.Precedes (fun u => fs.Uses u ∧ ¬ ∃ d ∈ ds, d.name = u.name) u ∧
            assemble types ds fs policy =
              .error (.danglingReference u.name u.feature.name)) ∧
        (types.Acyclic → ∀ name owner, ∃ t, policy.classify types name owner = .ok t) := by
  refine ⟨namesParents_typeGraph, fun types hg ds fs policy => ?_⟩
  refine ⟨exists_assemble_eq_ok_iff hg, ?cyclic, ?chain, ?use, ?tier⟩
  case cyclic => exact fun h => assemble_of_cyclic hg h ds fs policy
  case chain => exact fun ha hn => assemble_of_not_chainResolves hg ha hn fs policy
  case use => exact fun ha hc hn => assemble_of_undeclared hg ha hc hn policy
  case tier =>
    intro ha name owner
    obtain ⟨t, ht, -⟩ := TierPolicy.classify_of_acyclic ha policy name owner
    exact ⟨t, ht⟩

def deviceTypes : TypeGraph := .ofList [⟨"VkDevice", .ofList ["VkInstance"]⟩]

/-- A command on devices and another name of it. -/
def deviceCommands : List Declaration :=
  [⟨"vkDestroyDeviceKHR", .aliasOf "vkDestroyDevice"⟩,
    ⟨"vkDestroyDevice", .canonical (some "VkDevice")⟩]

def deviceVersion : Feature where
  name := "VK_VERSION_1_0"
  kind := .apiVersion
  version := ⟨1, 0⟩
  flavors := .ofList ["vulkan"]
  adds := .ofList ["vkDestroyDevice"]

def strayVersion : Feature := { deviceVersion with removes := .ofList ["vkStray"] }

theorem deviceTypes_eq : deviceTypes =
    typeGraph [.element "type" [("name", "VkDevice"), ("parent", "VkInstance")] []] := by
  decide +kernel

theorem namesParents_deviceTypes : deviceTypes.NamesParents :=
  deviceTypes_eq ▸ namesParents_typeGraph _

theorem acyclic_deviceTypes : deviceTypes.Acyclic :=
  (TypeGraph.checkAcyclic_eq_ok_iff namesParents_deviceTypes).mp (by cbv)

theorem chainResolves_deviceCommands :
    ∀ d ∈ deviceCommands, ChainResolves deviceCommands d.name := by
  simp only [chainResolves_iff, deviceCommands, List.forall_mem_cons]
  exact ⟨⟨_, _, rfl⟩, ⟨_, _, rfl⟩, nofun⟩

theorem uses_strayVersion : (FeatureSet.insert ∅ strayVersion).uses =
    [⟨strayVersion, false, "vkDestroyDevice"⟩, ⟨strayVersion, true, "vkStray"⟩] := by
  cbv

/-- Types and chains are fine here, so that the stray removal decides. -/
theorem assemble_strayVersion : deviceTypes.NamesParents ∧ deviceTypes.Acyclic ∧
    (∀ d ∈ deviceCommands, ChainResolves deviceCommands d.name) ∧
    assemble deviceTypes deviceCommands (FeatureSet.insert ∅ strayVersion) .vulkan =
      .error (.danglingReference "vkStray" "VK_VERSION_1_0") := by
  have hg : deviceTypes.NamesParents := deviceTypes_eq ▸ assemble_exact.1 _
  have hu : ¬ ∀ u, (FeatureSet.insert ∅ strayVersion).Uses u →
      ∃ d ∈ deviceCommands, d.name = u.name := by
    intro h
    have hs := h ⟨strayVersion, true, "vkStray"⟩
      (mem_featureSet_uses.mp (by simp [uses_strayVersion]))
    simp [deviceCommands] at hs
  obtain ⟨u, ⟨⟨hm, hn⟩, -⟩, h⟩ := (assemble_exact.2 _ hg deviceCommands _ .vulkan).2.2.2.1
    acyclic_deviceTypes chainResolves_deviceCommands hu
  refine ⟨hg, acyclic_deviceTypes, chainResolves_deviceCommands, ?_⟩
  rw [← mem_featureSet_uses, uses_strayVersion] at hm
  simp only [List.mem_cons, List.not_mem_nil, or_false] at hm
  rcases hm with rfl | rfl
  · simp [deviceCommands] at hn
  · exact h

end Registry

end LoadTiers
