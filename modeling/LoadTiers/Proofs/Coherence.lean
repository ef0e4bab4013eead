import LoadTiers.Proofs.Catalog

/-! # Coherence of a catalog

Each entry of a catalog finds its canonical name on a chain of its own. Chains that meet end alike,
so that an alias never differs from its target or from its canonical entry point in what it takes
from there.
-/

namespace LoadTiers

variable {ds : List Declaration} {types : TypeGraph} {policy : TierPolicy} {n m t : String}
  {d : Declaration} {e e' : EntryPoint} {catalog : Catalog} {k : Nat}

theorem Declaration.aliasTarget_eq_some_iff :
    d.aliasTarget = some t ↔ d.definition = .aliasOf t := by
  unfold aliasTarget
  cases d.definition <;> simp

theorem Declaration.isAlias_eq_false_iff :
    d.isAlias = false ↔ ∃ owner, d.definition = .canonical owner := by
  unfold isAlias aliasTarget
  cases d.definition <;> simp

/-- What two names of one entry point have in common. -/
structure EntryPoint.Agrees (e e' : EntryPoint) : Prop where
  canonical : e.canonical = e'.canonical
  ownerType : e.ownerType = e'.ownerType
  tier : e.tier = e'.tier

/-- Entries agree with the canonical entry points that they name, and aliases with their targets. -/
structure Catalog.Coherent (catalog : Catalog) : Prop where
  canonical : ∀ n e, catalog.get? n = some e → ∃ c, catalog.get? e.canonical = some c ∧
    c.definition = .canonical e.ownerType ∧ c.canonical = c.name ∧ c.Agrees e
  canonical_eq_iff : ∀ n e, catalog.get? n = some e → (e.canonical = n ↔ ¬ e.isAlias)
  target : ∀ n e t, catalog.get? n = some e → e.aliasTarget = some t →
    ∃ e', catalog.get? t = some e' ∧ e'.Agrees e

theorem Catalog.Coherent.tier_eq (hc : catalog.Coherent) (he : catalog.get? n = some e)
    (he' : catalog.get? m = some e') (h : e.canonical = e'.canonical) : e.tier = e'.tier := by
  obtain ⟨c, hget, -, -, ha⟩ := hc.canonical n e he
  obtain ⟨c', hget', -, -, ha'⟩ := hc.canonical m e' he'
  rw [h, hget', Option.some.injEq] at hget
  subst hget
  exact ha.tier.symm.trans ha'.tier

namespace Catalog

theorem agrees_of_canonical_eq (h : build ds types policy = .ok catalog)
    (he : catalog.get? n = some e) (he' : catalog.get? m = some e')
    (hc : e'.canonical = e.canonical) : e'.Agrees e := by
  obtain ⟨_, -, -, hcan⟩ := chain_of_get? h he
  obtain ⟨_, -, -, hcan'⟩ := chain_of_get? h he'
  have ho : e'.ownerType = e.ownerType := by
    rw [hc, hcan, Option.some.injEq, Definition.canonical.injEq] at hcan'
    exact hcan'.symm
  have ht : (.ok e'.tier : Except RegistryError Tier) = .ok e.tier := by
    rw [← classify_of_get? h he, ← classify_of_get? h he', hc, ho]
  exact ⟨hc, ho, Except.ok.inj ht⟩

/-- Whatever the length of its chain, a name has an entry that agrees with all others whose chains
end where its own does. -/
theorem exists_agrees_of_chain (h : build ds types policy = .ok catalog)
    (he : catalog.get? n = some e) (hm : AliasChain ds k m e.canonical) :
    ∃ e', catalog.get? m = some e' ∧ e'.Agrees e := by
  obtain ⟨_, -, -, hcan⟩ := chain_of_get? h he
  obtain ⟨_, hx⟩ := hm.exists_definition? hcan
  obtain ⟨e', he'⟩ := Option.isSome_iff_exists.mp
    ((contains_of_build h).mpr (exists_mem_of_definition? hx))
  obtain ⟨_, -, hm', hcan'⟩ := chain_of_get? h he'
  exact ⟨e', he', agrees_of_canonical_eq h he he' (hm'.eq_of_canonical hm hcan' hcan)⟩

theorem canonical_eq_iff (h : build ds types policy = .ok catalog)
    (he : catalog.get? n = some e) : e.canonical = n ↔ ¬ e.isAlias := by
  obtain ⟨_, -, hchain, hcan⟩ := chain_of_get? h he
  have hd := definition?_of_get? h he
  rw [Bool.not_eq_true, Declaration.isAlias_eq_false_iff]
  constructor
  · intro hn
    rw [hn, hd, Option.some.injEq] at hcan
    exact ⟨_, hcan⟩
  · rintro ⟨owner, ho⟩
    rw [ho] at hd
    exact hchain.eq_of_canonical (.nil n) hcan hd

theorem exists_target_agrees (h : build ds types policy = .ok catalog)
    (he : catalog.get? n = some e) (ht : e.aliasTarget = some t) :
    ∃ e', catalog.get? t = some e' ∧ e'.Agrees e := by
  obtain ⟨_, -, hchain, hcan⟩ := chain_of_get? h he
  have hd := definition?_of_get? h he
  rw [Declaration.aliasTarget_eq_some_iff.mp ht] at hd
  -- the canonical name is not an alias, so the chain has a step, and that leads to the target
  cases hchain with
  | nil => cases hd.symm.trans hcan
  | cons ht' hchain =>
    cases hd.symm.trans ht'
    exact exists_agrees_of_chain h he hchain

theorem coherent_of_build (h : build ds types policy = .ok catalog) : catalog.Coherent := by
  refine ⟨fun n e he => ?_, fun n e => canonical_eq_iff h, fun n e t => exists_target_agrees h⟩
  obtain ⟨c, hc, ha⟩ := exists_agrees_of_chain h he (.nil e.canonical)
  obtain ⟨_, -, -, hcan⟩ := chain_of_get? h he
  have hd := (definition?_of_get? h hc).symm.trans hcan
  have hn : c.name = e.canonical := (Roster.get?_eq_some_iff.mp hc).2
  exact ⟨c, hc, Option.some.inj hd, ha.canonical.trans hn.symm, ha⟩

theorem filter_name_of_build (h : build ds types policy = .ok catalog) (n : String) :
    (catalog.toList.filter fun e => e.name == n).map (·.toDeclaration) =
      (ds.find? fun d => d.name == n).toList := by
  rw [Roster.filter_name_eq catalog n]
  cases he : catalog.get? n with
  | some e =>
    rw [find?_of_get? h he]
    rfl
  | none =>
    have hn : ¬ ∃ d ∈ ds, d.name = n := by
      rw [← contains_of_build h, Roster.contains, he]
      exact Bool.false_ne_true
    have hd : ds.find? (fun d => d.name == n) = none := by simpa using hn
    rw [hd]
    rfl

/-- A catalog has one entry for each declared name, with its first declaration. The entries are
coherent. -/
theorem build_coherent (ds : List Declaration) (types : TypeGraph) (policy : TierPolicy)
    (catalog : Catalog) (h : build ds types policy = .ok catalog) :
    (∀ n, (catalog.toList.filter fun e => e.name == n).map (·.toDeclaration) =
      (ds.find? fun d => d.name == n).toList) ∧
    catalog.Coherent :=
  ⟨filter_name_of_build h, coherent_of_build h⟩

/-- A command on devices with two other names, one through the other. The second declaration of the
command would close a circle. -/
def addressCommands : List Declaration :=
  [⟨"vkGetBufferDeviceAddressEXT", .aliasOf "vkGetBufferDeviceAddressKHR"⟩,
    ⟨"vkGetBufferDeviceAddressKHR", .aliasOf "vkGetBufferDeviceAddress"⟩,
    ⟨"vkGetBufferDeviceAddress", .canonical (some "VkDevice")⟩,
    ⟨"vkGetBufferDeviceAddress", .aliasOf "vkGetBufferDeviceAddressEXT"⟩]

def addressCatalog : Catalog := .ofList ((addressCommands.take 3).map
  (⟨·, "vkGetBufferDeviceAddress", some "VkDevice", .scopeB⟩))

/-- The second declaration of the command has no entry, and both aliases agree with the first. -/
theorem build_addressCommands :
    build addressCommands ∅ .vulkan = .ok addressCatalog ∧
    (addressCatalog.toList.filter fun e => e.name == "vkGetBufferDeviceAddress").map
      (·.toDeclaration) = [⟨"vkGetBufferDeviceAddress", .canonical (some "VkDevice")⟩] ∧
    ∃ e e', addressCatalog.get? "vkGetBufferDeviceAddressEXT" = some e ∧
      addressCatalog.get? "vkGetBufferDeviceAddressKHR" = some e' ∧ e'.Agrees e := by
  have h : build addressCommands ∅ .vulkan = .ok addressCatalog := by decide +kernel
  obtain ⟨hn, hc⟩ := build_coherent _ _ _ _ h
  have he : addressCatalog.get? "vkGetBufferDeviceAddressEXT" =
      some ⟨addressCommands[0], "vkGetBufferDeviceAddress", some "VkDevice", .scopeB⟩ := by
    decide +kernel
  obtain ⟨e', he', ha⟩ := hc.target _ _ "vkGetBufferDeviceAddressKHR" he rfl
  exact ⟨h, hn _, _, e', he, he', ha⟩

end Catalog

end LoadTiers
