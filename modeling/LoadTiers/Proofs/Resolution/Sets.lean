import LoadTiers.Proofs.Resolution.Removes

/-! # Answers as sets

An answer lists the canonical names of the enabled names, and groups the aliases among the enabled
names by their canonical names. The enabled names are given by sets of features, without the order
in which those are gone through.
-/

namespace LoadTiers

namespace AliasTable

variable {t : AliasTable} {c c' n m : String}

theorem contains_add : (t.add c n).contains c' ↔ t.contains c' ∨ c = c' := by
  rw [add, Roster.contains_insert, Bool.or_eq_true, beq_iff_eq, or_comm, @eq_comm _ c']

theorem mem_aliasesOf_add : m ∈ (t.add c n).aliasesOf c' ↔ m ∈ t.aliasesOf c' ∨ c = c' ∧ n = m := by
  by_cases h : c = c'
  · subst h
    have ha : (t.add c n).aliasesOf c = (t.aliasesOf c).insert n := by
      rw [add, aliasesOf, Roster.get?_insert, if_pos rfl]
    rw [ha, NameSet.mem_insert, or_comm, and_iff_right rfl, eq_comm]
  · have ha : (t.add c n).aliasesOf c' = t.aliasesOf c' := by
      rw [add, aliasesOf, Roster.get?_insert, if_neg (Ne.symm h), aliasesOf]
    simp [ha, h]

end AliasTable

namespace Registry

variable {R : Registry} {q : Request} {r : Resolution} {c n : String} {entries : List EntryPoint}
  {e : EntryPoint}

theorem contains_foldl_add {t : AliasTable} :
    (entries.foldl (fun t e => if e.isAlias then t.add e.canonical e.name else t) t).contains c ↔
      t.contains c ∨ ∃ e ∈ entries, e.isAlias ∧ e.canonical = c := by
  induction entries generalizing t with
  | nil => simp
  | cons e entries ih =>
    rw [List.foldl_cons, ih, List.exists_mem_cons_iff, ← or_assoc]
    refine or_congr_left ?_
    cases h : e.isAlias with
    | false => simp
    | true => simp [AliasTable.contains_add]

theorem mem_aliasesOf_foldl_add {t : AliasTable} :
    n ∈ (entries.foldl (fun t e => if e.isAlias then t.add e.canonical e.name else t)
        t).aliasesOf c ↔
      n ∈ t.aliasesOf c ∨ ∃ e ∈ entries, e.isAlias ∧ e.canonical = c ∧ e.name = n := by
  induction entries generalizing t with
  | nil => simp
  | cons e entries ih =>
    rw [List.foldl_cons, ih, List.exists_mem_cons_iff, ← or_assoc]
    refine or_congr_left ?_
    cases h : e.isAlias with
    | false => simp
    | true => simp [AliasTable.mem_aliasesOf_add]

theorem contains_aliasTable :
    (aliasTable entries).contains c ↔ ∃ e ∈ entries, e.isAlias ∧ e.canonical = c := by
  rw [aliasTable, contains_foldl_add]
  exact or_iff_right nofun

theorem mem_aliasesOf_aliasTable : n ∈ (aliasTable entries).aliasesOf c ↔
    ∃ e ∈ entries, e.isAlias ∧ e.canonical = c ∧ e.name = n := by
  rw [aliasTable, mem_aliasesOf_foldl_add]
  exact or_iff_right nofun

theorem mem_bucketsOf {ls : List Listing} :
    (∃ t, c ∈ (bucketsOf ls).get t) ↔ ∃ l ∈ ls, l.name = c := by
  simp [bucketsOf]

theorem mem_bucketsOf_listings :
    (∃ t, c ∈ (bucketsOf (listings entries).toList).get t) ↔ ∃ e ∈ entries, e.canonical = c := by
  have h : (∃ l ∈ (listings entries).toList, l.name = c) ↔ (listings entries).contains c := by
    rw [Roster.contains_iff, Roster.names, List.mem_map]
  rw [mem_bucketsOf, h, listings, Roster.contains_ofList]
  simp

theorem mem_rawEntries :
    e ∈ R.rawEntries q ↔ ∃ n ∈ R.rawSet q, R.catalog.get? n = some e := by
  rw [rawEntries, List.mem_filterMap]
  exact exists_congr fun n => and_congr_left' mem_rawNames

/-- The enabled aliases of a canonical name. -/
def aliasSet (R : Registry) (q : Request) (c : String) : Set String :=
  {n | n ∈ R.rawSet q ∧ ∃ e, R.catalog.get? n = some e ∧ e.isAlias ∧ e.canonical = c}

theorem mem_aliasSet : n ∈ R.aliasSet q c ↔
    ∃ e ∈ R.rawEntries q, e.isAlias ∧ e.canonical = c ∧ e.name = n := by
  simp only [mem_rawEntries]
  constructor
  · rintro ⟨hn, e, he, ha, hc⟩
    exact ⟨e, ⟨n, hn, he⟩, ha, hc, (Roster.get?_eq_some_iff.mp he).2⟩
  · rintro ⟨e, ⟨m, hm, he⟩, ha, hc, rfl⟩
    have hn : e.name = m := (Roster.get?_eq_some_iff.mp he).2
    exact ⟨hn ▸ hm, e, hn ▸ he, ha, hc⟩

theorem mem_tiers_answer : (∃ t, c ∈ (R.answer q).tiers.get t) ↔
    ∃ n ∈ R.rawSet q, ∃ e, R.catalog.get? n = some e ∧ e.canonical = c := by
  rw [answer, mem_bucketsOf_listings]
  simp only [mem_rawEntries]
  constructor
  · rintro ⟨e, ⟨n, hn, he⟩, hc⟩
    exact ⟨n, hn, e, he, hc⟩
  · rintro ⟨n, hn, e, he, hc⟩
    exact ⟨e, ⟨n, hn, he⟩, hc⟩

theorem contains_aliases_answer :
    (R.answer q).aliases.contains c ↔ (R.aliasSet q c).Nonempty := by
  rw [answer, contains_aliasTable]
  constructor
  · rintro ⟨e, he, ha, hc⟩
    exact ⟨e.name, mem_aliasSet.mpr ⟨e, he, ha, hc, rfl⟩⟩
  · rintro ⟨n, hn⟩
    obtain ⟨e, he, ha, hc, -⟩ := mem_aliasSet.mp hn
    exact ⟨e, he, ha, hc⟩

theorem aliases_of_get?_answer {group : AliasGroup}
    (h : (R.answer q).aliases.get? c = some group) :
    {n | n ∈ group.aliases} = R.aliasSet q c := by
  have hg : (R.answer q).aliases.aliasesOf c = group.aliases := by
    rw [AliasTable.aliasesOf, h]
  ext n
  rw [Set.mem_ofPred_eq, mem_aliasSet, ← mem_aliasesOf_aliasTable, ← hg]
  rfl

/-- An enabled extension adds its names in spite of all removes. -/
theorem mem_rawSet_of_extension {f : Feature} (hf : f ∈ R.extensionSet q) (hn : n ∈ f.adds) :
    n ∈ R.rawSet q :=
  Set.mem_union_right _ (Set.mem_biUnion hf hn)

/-- An answer has the canonical names of the enabled names in its tiers, and the enabled aliases in
its groups. Only what the enabled API versions remove has an effect on it, and it has a name in
spite of that if an enabled extension adds the name. -/
theorem answer_eq_sets (R : Registry) (q : Request) (r : Resolution) (h : R.resolve q = .ok r) :
    (∀ c, (∃ t, c ∈ r.tiers.get t) ↔
      ∃ n ∈ R.rawSet q, ∃ e, R.catalog.get? n = some e ∧ e.canonical = c) ∧
    (∀ c, r.aliases.contains c ↔ (R.aliasSet q c).Nonempty) ∧
    (∀ c group, r.aliases.get? c = some group → {n | n ∈ group.aliases} = R.aliasSet q c) ∧
    (∀ g : Feature → NameSet, (∀ f ∈ R.versionSet q, g f = f.removes) →
      (R.withRemoves g).resolve q = .ok r) ∧
    (∀ v ∈ R.versionSet q, ∀ x ∈ R.extensionSet q, ∀ n ∈ v.removes, n ∈ x.adds →
      n ∈ R.rawSet q ∧ ∃ e t, R.catalog.get? n = some e ∧ e.canonical ∈ r.tiers.get t) := by
  obtain ⟨hu, rfl⟩ := resolve_eq_ok_iff.mp h
  refine ⟨fun c => mem_tiers_answer, fun c => contains_aliases_answer,
    fun c group hg => aliases_of_get?_answer hg, ?removes, ?added⟩
  case removes =>
    intro g hg
    rw [resolve_withRemoves hg, h]
  case added =>
    intro v hv x hx n hr ha
    have hn := mem_rawSet_of_extension hx ha
    obtain ⟨e, he⟩ := Option.isSome_iff_exists.mp (hu ⟨x, false, n⟩ (.inr ⟨hx, rfl, ha⟩))
    obtain ⟨t, ht⟩ := mem_tiers_answer.mpr ⟨n, hn, e, he, rfl⟩
    exact ⟨hn, e, t, he, ht⟩

def revokingVersion : Feature := { deviceVersion with removes := .ofList ["vkDestroyDeviceKHR"] }

def restoringExtension : Feature where
  name := "VK_KHR_device"
  kind := .extension false none
  flavors := .ofList ["vulkan"]
  adds := .ofList ["vkDestroyDeviceKHR"]

def restoringRegistry : Registry where
  types := deviceTypes
  catalog := .ofList (deviceCommands.map (⟨·, "vkDestroyDevice", some "VkDevice", .scopeB⟩))
  features := (FeatureSet.insert ∅ revokingVersion).insert restoringExtension
  policy := .vulkan

/-- The extension brings the removed alias back, and with it a group for its canonical name. -/
theorem answer_restoringRegistry :
    restoringRegistry.resolve {} = .ok (restoringRegistry.answer {}) ∧
    revokingVersion ∈ restoringRegistry.versionSet {} ∧
    restoringExtension ∈ restoringRegistry.extensionSet {} ∧
    "vkDestroyDeviceKHR" ∈ restoringRegistry.rawSet {} ∧
    (restoringRegistry.aliasSet {} "vkDestroyDevice").Nonempty ∧
    ∃ t, "vkDestroyDevice" ∈ (restoringRegistry.answer {}).tiers.get t := by
  have hc : restoringRegistry.checkEnabled {} = .ok () := by cbv
  have h : restoringRegistry.resolve {} = .ok (restoringRegistry.answer {}) := by
    rw [resolve_eq, hc, ok_bind]
  have hv : revokingVersion ∈ restoringRegistry.versionSet {} := ⟨by decide, by decide, by decide⟩
  have hx : restoringExtension ∈ restoringRegistry.extensionSet {} :=
    ⟨by decide, by decide, by decide, by decide⟩
  obtain ⟨ht, -, -, -, hr⟩ := answer_eq_sets restoringRegistry {} _ h
  obtain ⟨hn, -⟩ := hr _ hv _ hx "vkDestroyDeviceKHR" (by decide) (by decide)
  have he : restoringRegistry.catalog.get? "vkDestroyDeviceKHR" =
      some ⟨deviceCommands[0], "vkDestroyDevice", some "VkDevice", .scopeB⟩ := by cbv
  exact ⟨h, hv, hx, hn, ⟨_, hn, _, he, rfl, rfl⟩, (ht _).mpr ⟨_, hn, _, he, rfl⟩⟩

end Registry

end LoadTiers
