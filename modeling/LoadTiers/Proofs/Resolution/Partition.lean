import LoadTiers.Report
import LoadTiers.Proofs.Coherence
import LoadTiers.Proofs.Resolution.Sets
import Mathlib.Data.List.Nodup

/-! # The tiers of an answer

The names in the tiers of an answer are parted by the tiers of their entries. A name is listed in
the tier of the last of its enabled names, so this rests on the coherence of the catalog.
-/

namespace LoadTiers

namespace TierBuckets

variable {b : TierBuckets} {n : String}

theorem map_snd_toList (b : TierBuckets) : b.toList.map (·.2) = Tier.all.flatMap b.get := by
  simp [toList, List.map_flatMap, Function.comp_def]

theorem size_eq_length (b : TierBuckets) : b.size = (Tier.all.flatMap b.get).length := by
  simp [size, Tier.all, get, Nat.add_assoc]

end TierBuckets

namespace Resolution

variable {r : Resolution} {n : String} {t : Tier}

theorem isEnabled_iff : r.isEnabled n ↔ ∃ t, n ∈ r.tiers.get t := by
  simp [isEnabled, tierOf, Tier.mem_all]

theorem mem_enabled : n ∈ r.enabled ↔ ∃ t, n ∈ r.tiers.get t := by
  simp [enabled, NameSet.mem_ofList, TierBuckets.map_snd_toList, Tier.mem_all]

def OneTier (r : Resolution) : Prop := ∀ n t t', n ∈ r.tiers.get t → n ∈ r.tiers.get t' → t = t'

theorem OneTier.tierOf_eq_some_iff (hd : r.OneTier) :
    r.tierOf n = some t ↔ n ∈ r.tiers.get t := by
  constructor
  · intro h
    simpa using List.find?_some h
  · intro h
    obtain ⟨t', ht'⟩ := Option.isSome_iff_exists.mp (isEnabled_iff.mpr ⟨t, h⟩)
    have hn : n ∈ r.tiers.get t' := by simpa using List.find?_some ht'
    rw [ht', hd n t' t hn h]

theorem OneTier.enabledCount_eq_size (hd : r.OneTier)
    (hs : ∀ t, (r.tiers.get t).Pairwise (· < ·)) : r.enabledCount = r.enabled.size := by
  have hn : (Tier.all.flatMap r.tiers.get).Nodup := by
    refine List.nodup_flatMap.mpr ⟨fun t _ => (hs t).imp String.ne_of_lt, ?_⟩
    have ht : Tier.all.Nodup := by decide
    exact ht.imp fun hne n hn hn' => hne (hd n _ _ hn hn')
  rw [enabledCount, TierBuckets.size_eq_length, enabled, TierBuckets.map_snd_toList,
    NameSet.size_ofList hn]

end Resolution

namespace Registry

variable {R : Registry} {q : Request} {ls : List Listing} {c n : String} {t : Tier}

theorem mem_get_bucketsOf :
    n ∈ (bucketsOf ls).get t ↔ ∃ l ∈ ls, l.name = n ∧ l.tier = t := by
  simp [bucketsOf, and_assoc, and_comm]

theorem pairwise_get_bucketsOf (ls : Roster Listing.name) (t : Tier) :
    ((bucketsOf ls.toList).get t).Pairwise (· < ·) := by
  rw [bucketsOf, TierBuckets.get_ofTiers, List.pairwise_map]
  exact ls.sorted.filter _

theorem exists_of_mem_get_tiers (h : c ∈ (R.answer q).tiers.get t) :
    ∃ n ∈ R.rawSet q, ∃ e, R.catalog.get? n = some e ∧ e.canonical = c ∧ e.tier = t := by
  obtain ⟨l, hl, rfl, rfl⟩ := mem_get_bucketsOf.mp h
  obtain ⟨e, he, rfl⟩ := List.mem_map.mp (Roster.mem_of_mem_ofList hl)
  obtain ⟨n, hn, hget⟩ := mem_rawEntries.mp he
  exact ⟨n, hn, e, hget, rfl, rfl⟩

theorem mem_get_tiers_answer (hc : R.catalog.Coherent) : c ∈ (R.answer q).tiers.get t ↔
    ∃ n ∈ R.rawSet q, ∃ e, R.catalog.get? n = some e ∧ e.canonical = c ∧ e.tier = t := by
  refine ⟨exists_of_mem_get_tiers, ?_⟩
  rintro ⟨n, hn, e, he, hec, rfl⟩
  -- another of its names may be the one that decided the tier
  obtain ⟨t, ht⟩ := mem_tiers_answer.mpr ⟨n, hn, e, he, hec⟩
  obtain ⟨m, -, e', he', hec', rfl⟩ := exists_of_mem_get_tiers ht
  rw [hc.tier_eq he he' (hec.trans hec'.symm)]
  exact ht

theorem tier_eq_of_mem_get_tiers (hc : R.catalog.Coherent) {q' : Request} {t' : Tier}
    (h : c ∈ (R.answer q).tiers.get t) (h' : c ∈ (R.answer q').tiers.get t') : t = t' := by
  obtain ⟨_, -, e, he, hec, rfl⟩ := exists_of_mem_get_tiers h
  obtain ⟨_, -, e', he', hec', rfl⟩ := exists_of_mem_get_tiers h'
  exact hc.tier_eq he he' (hec.trans hec'.symm)

theorem oneTier_answer (hc : R.catalog.Coherent) : (R.answer q).OneTier :=
  fun _ _ _ => tier_eq_of_mem_get_tiers hc

/-- A listed name has a canonical declaration, and stands in the tier of its own entry. -/
theorem entry_of_mem_get_tiers (hc : R.catalog.Coherent) (h : c ∈ (R.answer q).tiers.get t) :
    ∃ e, R.catalog.get? c = some e ∧ e.definition = .canonical e.ownerType ∧ e.canonical = c ∧
      e.tier = t := by
  obtain ⟨n, -, e, he, rfl, rfl⟩ := exists_of_mem_get_tiers h
  obtain ⟨e', he', hd, -, ha⟩ := hc.canonical n e he
  exact ⟨e', he', ha.ownerType ▸ hd, ha.canonical, ha.tier⟩

theorem tierOf_answer (hc : R.catalog.Coherent) (h : c ∈ (R.answer q).tiers.get t) :
    (R.answer q).tierOf c = R.catalog.tierOf c := by
  obtain ⟨e, he, -, -, rfl⟩ := entry_of_mem_get_tiers hc h
  rw [(oneTier_answer hc).tierOf_eq_some_iff.mpr h, Catalog.tierOf, he]
  rfl

theorem group_of_get?_aliases (hc : R.catalog.Coherent) {group : AliasGroup}
    (h : (R.answer q).aliases.get? c = some group) :
    (∃ t, c ∈ (R.answer q).tiers.get t) ∧ (∃ n, n ∈ group.aliases) ∧
      ∀ n ∈ group.aliases, ∀ t, n ∉ (R.answer q).tiers.get t := by
  have hg := aliases_of_get?_answer h
  have hk : (R.answer q).aliases.contains c := by rw [Roster.contains, h]; rfl
  obtain ⟨n, hn⟩ := contains_aliases_answer.mp hk
  refine ⟨?listed, ⟨n, hg.symm.subset hn⟩, ?unlisted⟩
  case listed =>
    obtain ⟨hr, e, he, -, hec⟩ := hn
    exact mem_tiers_answer.mpr ⟨n, hr, e, he, hec⟩
  case unlisted =>
    intro m hm t ht
    obtain ⟨-, e, he, ha, -⟩ := hg.subset hm
    obtain ⟨e', he', hd, -⟩ := entry_of_mem_get_tiers hc ht
    obtain rfl := Option.some.inj (he.symm.trans he')
    rw [Declaration.isAlias_eq_false_iff.mpr ⟨_, hd⟩] at ha
    exact Bool.false_ne_true ha

/-- Each enabled name has its canonical entry point in the tier of its entry. The tiers are sorted
and disjoint, hold canonical entry points by their tiers, and are as large as the set of the names
in them. The keys of alias groups are in the tiers, and the aliases in the groups are not. -/
theorem tiers_partition (ds : List Declaration) (types : TypeGraph) (policy : TierPolicy)
    (R : Registry) (q : Request) (r : Resolution)
    (hb : Catalog.build ds types policy = .ok R.catalog) (h : R.resolve q = .ok r) :
    (∀ n ∈ R.rawSet q, ∃ e, R.catalog.get? n = some e ∧ e.canonical ∈ r.tiers.get e.tier) ∧
    (∀ t, (r.tiers.get t).Pairwise (· < ·)) ∧
    (∀ n t t', n ∈ r.tiers.get t → n ∈ r.tiers.get t' → t = t') ∧
    (∀ n t, n ∈ r.tiers.get t →
      (∃ e, R.catalog.get? n = some e ∧ ¬ e.isAlias ∧ e.tier = t) ∧
        r.tierOf n = R.catalog.tierOf n) ∧
    (∀ c group, r.aliases.get? c = some group → (∃ t, c ∈ r.tiers.get t) ∧
      (∃ n, n ∈ group.aliases) ∧ ∀ n ∈ group.aliases, ∀ t, n ∉ r.tiers.get t) ∧
    (∀ n, n ∈ r.enabled ↔ ∃ t, n ∈ r.tiers.get t) ∧
    r.enabledCount = r.enabled.size ∧
    (Facts.derive R r).totalEntryPoints = .ofNat r.enabled.size := by
  have hc := Catalog.coherent_of_build hb
  obtain ⟨hu, rfl⟩ := resolve_eq_ok_iff.mp h
  have hs : ∀ t, ((R.answer q).tiers.get t).Pairwise (· < ·) := pairwise_get_bucketsOf _
  have hcount := (oneTier_answer hc).enabledCount_eq_size hs
  refine ⟨?total, hs, oneTier_answer hc, ?entry, fun c group => group_of_get?_aliases hc,
    fun n => Resolution.mem_enabled, hcount, ?facts⟩
  case total =>
    intro n hn
    obtain ⟨u, hq, rfl⟩ := exists_uses_of_mem_rawSet hn
    obtain ⟨e, he⟩ := Option.isSome_iff_exists.mp (hu u hq)
    exact ⟨e, he, (mem_get_tiers_answer hc).mpr ⟨_, hn, e, he, rfl, rfl⟩⟩
  case entry =>
    intro n t hn
    obtain ⟨e, he, hd, -, ht⟩ := entry_of_mem_get_tiers hc hn
    have ha : e.isAlias = false := Declaration.isAlias_eq_false_iff.mpr ⟨_, hd⟩
    exact ⟨⟨e, he, by simp [ha], ht⟩, tierOf_answer hc hn⟩
  case facts =>
    rw [Facts.derive, hcount]

/-- The command is enabled by both of its names, and listed once under the canonical one. -/
theorem tierOf_restoringRegistry :
    Catalog.build deviceCommands deviceTypes .vulkan = .ok restoringRegistry.catalog ∧
    ∃ r, restoringRegistry.resolve {} = .ok r ∧ r.tierOf "vkDestroyDevice" = some .scopeB ∧
      (∀ t, "vkDestroyDeviceKHR" ∉ r.tiers.get t) ∧ r.enabledCount = r.enabled.size := by
  have hb : Catalog.build deviceCommands deviceTypes .vulkan = .ok restoringRegistry.catalog := by
    decide +kernel
  have hc : restoringRegistry.checkEnabled {} = .ok () := by cbv
  have h : restoringRegistry.resolve {} = .ok (restoringRegistry.answer {}) := by
    rw [resolve_eq, hc, ok_bind]
  obtain ⟨-, -, -, ht, hg, -, hs, -⟩ := tiers_partition _ _ _ _ _ _ hb h
  obtain ⟨⟨t, hl⟩, -, hn⟩ := hg "vkDestroyDevice" ⟨_, .ofList ["vkDestroyDeviceKHR"]⟩ (by cbv)
  obtain ⟨-, hd⟩ := ht _ _ hl
  exact ⟨hb, _, h, hd.trans (by cbv), hn "vkDestroyDeviceKHR" (by decide), hs⟩

end Registry

end LoadTiers
