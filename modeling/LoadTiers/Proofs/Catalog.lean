import LoadTiers.Proofs.AliasChain
import LoadTiers.Proofs.First
import LoadTiers.Proofs.TypeGraph.Acyclic

/-! # The entries of a catalog

A catalog holds one entry for each declared name, and the least name without an entry refuses the
declarations. Over an acyclic type graph only alias chains can fail.
-/

namespace LoadTiers

variable {ds : List Declaration} {types : TypeGraph} {policy : TierPolicy} {n : String}
  {d : Declaration} {e : EntryPoint} {err : RegistryError} {catalog : Catalog}

/-- The chain of a name reaches a canonical declaration within the bound. -/
def ChainResolves (ds : List Declaration) (n : String) : Prop :=
  ∃ k ≤ maxAliasDepth, ∃ c owner, AliasChain ds k n c ∧ definition? ds c = some (.canonical owner)

inductive ChainError (ds : List Declaration) (n : String) : RegistryError → Prop

  | missing {k : Nat} {m : String} (hk : k ≤ maxAliasDepth) (h : AliasChain ds k n m)
      (hm : definition? ds m = none) : ChainError ds n (.danglingReference m n)

  | unbounded {m : String} (h : AliasChain ds (maxAliasDepth + 1) n m) :
      ChainError ds n (.cyclicAlias n)

theorem chainResolves_iff : ChainResolves ds n ↔
    ∃ c owner, (Declarations.ofList ds).follow maxAliasDepth n = .canonical c owner := by
  simp only [follow_eq_iff]
  constructor
  · rintro ⟨k, hk, c, owner, h, hc⟩
    exact ⟨c, owner, .canonical hk h hc⟩
  · rintro ⟨c, owner, h⟩
    cases h with | canonical hk h hc => exact ⟨_, hk, c, owner, h, hc⟩

namespace Catalog

theorem enter_eq_ok_iff :
    enter (Declarations.ofList ds) types policy d = .ok e ↔ e.toDeclaration = d ∧
      ChainEnds ds maxAliasDepth d.name (.canonical e.canonical e.ownerType) ∧
      policy.classify types e.canonical e.ownerType = .ok e.tier := by
  rw [← follow_eq_iff]
  unfold enter
  split
  · next c owner h =>
    rw [h]
    cases ht : policy.classify types c owner with
    | error err =>
      simp only [error_bind, reduceCtorEq, false_iff, not_and, ChainEnd.canonical.injEq]
      rintro - ⟨rfl, rfl⟩
      simp [ht]
    | ok t =>
      simp only [ok_bind, pure, Except.pure, Except.ok.injEq, ChainEnd.canonical.injEq]
      constructor
      · rintro rfl
        exact ⟨rfl, ⟨rfl, rfl⟩, ht⟩
      · rintro ⟨rfl, ⟨rfl, rfl⟩, ht'⟩
        rw [ht, Except.ok.injEq] at ht'
        subst ht'
        rfl
  · next h => simp [h]
  · next h => simp [h]

/-- Over an acyclic type graph the names that cannot be entered are those whose chain does not
resolve. -/
theorem enter_spec (hg : types.Acyclic) (policy : TierPolicy) (ds : List Declaration)
    (d : Declaration) :
    (ChainResolves ds d.name ∧ ∃ e, enter (Declarations.ofList ds) types policy d = .ok e) ∨
      (¬ ChainResolves ds d.name ∧ ∃ err, ChainError ds d.name err ∧
        enter (Declarations.ofList ds) types policy d = .error err) := by
  rw [chainResolves_iff]
  have h := chainEnds_follow ds maxAliasDepth d.name
  unfold enter
  generalize (Declarations.ofList ds).follow maxAliasDepth d.name = x at h ⊢
  cases h with
  | @canonical k c owner hk h hc =>
    obtain ⟨t, ht, -⟩ := TierPolicy.classify_of_acyclic hg policy c owner
    exact .inl ⟨⟨c, owner, rfl⟩, by simp [ht, pure, Except.pure]⟩
  | missing hk h hm => exact .inr ⟨by simp, _, .missing hk h hm, rfl⟩
  | unbounded h => exact .inr ⟨by simp, _, .unbounded h, rfl⟩

theorem enter_eq_error_iff (hg : types.Acyclic) :
    (∃ err, enter (Declarations.ofList ds) types policy d = .error err) ↔
      ¬ ChainResolves ds d.name := by
  rcases enter_spec hg policy ds d with ⟨h, e, he⟩ | ⟨h, err, -, he⟩ <;> simp [h, he]

theorem names_of_mapM {l : List Declaration} {es : List EntryPoint}
    (h : l.mapM (enter (Declarations.ofList ds) types policy) = .ok es) :
    es.map EntryPoint.key = l.map Declaration.name := by
  induction mapM_eq_ok_iff.mp h with
  | nil => rfl
  | cons hd hl ih =>
    rw [List.map_cons, List.map_cons, ih (mapM_eq_ok_iff.mpr hl), ← (enter_eq_ok_iff.mp hd).1]

theorem mapM_of_build (h : build ds types policy = .ok catalog) :
    (Declarations.ofList ds).toList.mapM (enter (Declarations.ofList ds) types policy) =
      .ok catalog.toList := by
  obtain ⟨es, hes, hc⟩ := bind_eq_ok_iff.mp h
  cases hc
  have hsorted : es.Pairwise fun a b => a.key < b.key := by
    rw [← List.pairwise_map, names_of_mapM hes, List.pairwise_map]
    exact (Declarations.ofList ds).sorted
  rw [Roster.toList_ofList hsorted, hes]

theorem get?_of_build (h : build ds types policy = .ok catalog) :
    catalog.get? n = some e ↔ ∃ d, ds.find? (fun d => d.name == n) = some d ∧
      enter (Declarations.ofList ds) types policy d = .ok e := by
  rw [Roster.get?_eq_some_iff, mem_of_mapM_eq_ok (mapM_of_build h)]
  constructor
  · rintro ⟨⟨d, hd, he⟩, rfl⟩
    refine ⟨d, ?_, he⟩
    rw [← Declarations.mem_ofList.mp hd, ← (enter_eq_ok_iff.mp he).1]
  · rintro ⟨d, hd, he⟩
    have hn : d.name = n := by simpa using List.find?_some hd
    refine ⟨⟨d, Declarations.mem_ofList.mpr (hn ▸ hd), he⟩, ?_⟩
    rw [← hn, ← (enter_eq_ok_iff.mp he).1]

theorem find?_of_get? (h : build ds types policy = .ok catalog) (he : catalog.get? n = some e) :
    ds.find? (fun d => d.name == n) = some e.toDeclaration := by
  obtain ⟨d, hd, hd'⟩ := (get?_of_build h).mp he
  rw [hd, (enter_eq_ok_iff.mp hd').1]

theorem definition?_of_get? (h : build ds types policy = .ok catalog)
    (he : catalog.get? n = some e) : definition? ds n = some e.definition := by
  rw [definition?, find?_of_get? h he]
  rfl

theorem chain_of_get? (h : build ds types policy = .ok catalog) (he : catalog.get? n = some e) :
    ∃ k ≤ maxAliasDepth, AliasChain ds k n e.canonical ∧
      definition? ds e.canonical = some (.canonical e.ownerType) := by
  obtain ⟨d, hd, hd'⟩ := (get?_of_build h).mp he
  obtain ⟨-, hends, -⟩ := enter_eq_ok_iff.mp hd'
  have hn : d.name = n := by simpa using List.find?_some hd
  rw [hn] at hends
  cases hends with
  | canonical hk hchain hcan => exact ⟨_, hk, hchain, hcan⟩

theorem classify_of_get? (h : build ds types policy = .ok catalog)
    (he : catalog.get? n = some e) :
    policy.classify types e.canonical e.ownerType = .ok e.tier := by
  obtain ⟨d, -, hd⟩ := (get?_of_build h).mp he
  exact (enter_eq_ok_iff.mp hd).2.2

theorem assigns_of_get? (hg : types.Acyclic) (h : build ds types policy = .ok catalog)
    (he : catalog.get? n = some e) :
    policy.Assigns (TypeGraph.Descends types · policy.scopeBRoot) e.canonical e.ownerType
      e.tier := by
  obtain ⟨t, hcl, ht⟩ := TierPolicy.classify_of_acyclic hg policy e.canonical e.ownerType
  rw [classify_of_get? h he, Except.ok.injEq] at hcl
  exact hcl ▸ ht

theorem contains_of_build (h : build ds types policy = .ok catalog) :
    catalog.contains n ↔ ∃ d ∈ ds, d.name = n := by
  rw [Roster.contains_iff, Roster.names, names_of_mapM (mapM_of_build h), ← Roster.names,
    Declarations.mem_names_ofList]

/-- Declarations are refused by the error of the least name that cannot be entered. -/
theorem build_eq_error_iff : build ds types policy = .error err ↔
    ∃ d, IsFirst (fun d d' : Declaration => d.name < d'.name)
      (fun d => d ∈ (Declarations.ofList ds).toList ∧
        ∃ err, enter (Declarations.ofList ds) types policy d = .error err) d ∧
      enter (Declarations.ofList ds) types policy d = .error err := by
  rw [← mapM_eq_error_iff_isFirst (fun _ _ => String.lt_asymm) (Declarations.ofList ds).sorted]
  rw [build, bind_eq_error_iff]
  simp [pure, Except.pure]

/-- Over an acyclic type graph a catalog is built exactly if all chains resolve. -/
theorem build_spec (hg : types.Acyclic) (policy : TierPolicy) (ds : List Declaration) :
    ((∀ d ∈ ds, ChainResolves ds d.name) ∧ ∃ catalog, build ds types policy = .ok catalog) ∨
      ∃ n, IsFirst (· < ·) (fun n => (∃ d ∈ ds, d.name = n) ∧ ¬ ChainResolves ds n) n ∧
        ∃ err, ChainError ds n err ∧ build ds types policy = .error err := by
  cases h : build ds types policy with
  | ok catalog =>
    refine .inl ⟨?_, catalog, rfl⟩
    rintro d hd
    obtain ⟨e, he⟩ := Option.isSome_iff_exists.mp ((contains_of_build h).mpr ⟨d, hd, rfl⟩)
    obtain ⟨d', hd', he'⟩ := (get?_of_build h).mp he
    have hn : d'.name = d.name := by simpa using List.find?_some hd'
    rcases enter_spec hg policy ds d' with ⟨hr, -⟩ | ⟨-, err, -, herr⟩
    · exact hn ▸ hr
    · rw [he'] at herr
      cases herr
  | error err =>
    obtain ⟨d, hf, hd⟩ := build_eq_error_iff.mp h
    simp only [enter_eq_error_iff hg] at hf
    refine .inr ⟨d.name, ⟨⟨?_, hf.1.2⟩, ?_⟩, err, ?_, rfl⟩
    · exact Declarations.mem_names_ofList.mp (List.mem_map_of_mem hf.1.1)
    · rintro n ⟨hn, hr⟩
      obtain ⟨d', hd', rfl⟩ := List.mem_map.mp (Declarations.mem_names_ofList.mpr hn)
      rcases hf.2 d' ⟨hd', hr⟩ with rfl | hlt
      · exact .inl rfl
      · exact .inr hlt
    · rcases enter_spec hg policy ds d with ⟨hr, -⟩ | ⟨-, err', he, herr⟩
      · exact absurd hr hf.1.2
      · rw [hd] at herr
        cases herr
        exact he

end Catalog

end LoadTiers
