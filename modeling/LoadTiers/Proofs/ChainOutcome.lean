import LoadTiers.Proofs.Catalog

/-! # Outcomes of alias chains

Each name has one of three outcomes: its canonical entry point, a target without declaration, or a
chain of more aliases than the bound allows. The outcome decides what the catalog says of the name,
and the least name with a bad outcome decides why declarations are refused.
-/

namespace LoadTiers

variable {ds : List Declaration} {types : TypeGraph} {policy : TierPolicy} {n m c : String}
  {i j k depth : Nat} {x y : ChainEnd} {err : RegistryError} {catalog : Catalog}

theorem AliasChain.trans (h : AliasChain ds j n m) (h' : AliasChain ds k m c) :
    AliasChain ds (j + k) n c := by
  induction h with
  | nil => rwa [Nat.zero_add]
  | @cons j n t m ht _ ih =>
    rw [Nat.add_right_comm]
    exact .cons ht (ih h')

theorem AliasChain.exists_take (h : AliasChain ds k n m) (hi : i ≤ k) :
    ∃ c, AliasChain ds i n c := by
  induction h generalizing i with
  | nil n => exact ⟨n, Nat.eq_zero_of_le_zero hi ▸ .nil n⟩
  | @cons k n t m ht _ ih =>
    cases i with
    | zero => exact ⟨n, .nil n⟩
    | succ i =>
      obtain ⟨c, hc⟩ := ih (Nat.le_of_succ_le_succ hi)
      exact ⟨c, .cons ht hc⟩

theorem AliasChain.exists_of_loop (h : AliasChain ds (k + 1) m m) (i : Nat) :
    ∃ c, AliasChain ds i m c := by
  have hrounds : ∃ l ≥ i, AliasChain ds l m m := by
    induction i with
    | zero => exact ⟨0, Nat.le_refl 0, .nil m⟩
    | succ i ih =>
      obtain ⟨l, hl, hc⟩ := ih
      exact ⟨l + (k + 1), by omega, hc.trans h⟩
  obtain ⟨l, hl, hc⟩ := hrounds
  exact hc.exists_take hl

theorem ChainEnds.unique (h : ChainEnds ds depth n x) (h' : ChainEnds ds depth n y) : x = y :=
  (follow_eq_iff.mpr h).symm.trans (follow_eq_iff.mpr h')

/-- A chain is unbounded if it has met nothing but aliases up to the bound. -/
theorem chainEnds_unbounded_iff : ChainEnds ds depth n .unbounded ↔
    ∀ k ≤ depth, ∀ m, AliasChain ds k n m → ∃ t, definition? ds m = some (.aliasOf t) := by
  constructor
  · intro h k hk m hm
    cases hd : definition? ds m with
    | none => cases h.unique (.missing hk hm hd)
    | some d =>
      cases d with
      | canonical owner => cases h.unique (.canonical hk hm hd)
      | aliasOf t => exact ⟨t, rfl⟩
  · intro h
    have hends := chainEnds_follow ds depth n
    generalize (Declarations.ofList ds).follow depth n = e at hends
    cases hends with
    | canonical hk hm hd =>
      obtain ⟨t, ht⟩ := h _ hk _ hm
      cases hd.symm.trans ht
    | missing hk hm hd =>
      obtain ⟨t, ht⟩ := h _ hk _ hm
      cases hd.symm.trans ht
    | unbounded hc => exact .unbounded hc

theorem chainEnds_unbounded_of_loop (h : AliasChain ds j n m)
    (hl : AliasChain ds (k + 1) m m) : ChainEnds ds depth n .unbounded := by
  obtain ⟨c, hc⟩ := hl.exists_of_loop (depth + 1)
  obtain ⟨c', hc'⟩ := (h.trans hc).exists_take (Nat.le_add_left (depth + 1) j)
  exact .unbounded hc'

/-- What the end of its chain makes of a name: its canonical entry point, or an error. -/
def ChainEnd.outcome (n : String) : ChainEnd → Except RegistryError (String × Option String)
  | canonical c owner => .ok (c, owner)
  | missing m => .error (.danglingReference m n)
  | unbounded => .error (.cyclicAlias n)

theorem chainResolves_iff_chainEnds : ChainResolves ds n ↔
    ∃ c owner, ChainEnds ds maxAliasDepth n (.canonical c owner) := by
  simp only [chainResolves_iff, follow_eq_iff]

theorem chainError_iff : ChainError ds n err ↔
    ∃ x, ChainEnds ds maxAliasDepth n x ∧ x.outcome n = .error err := by
  constructor
  · intro h
    cases h with
    | missing hk hm hd => exact ⟨_, .missing hk hm hd, rfl⟩
    | unbounded hc => exact ⟨_, .unbounded hc, rfl⟩
  · rintro ⟨x, hx, ho⟩
    cases hx with
    | canonical => cases ho
    | missing hk hm hd =>
      cases ho
      exact .missing hk hm hd
    | unbounded hc =>
      cases ho
      exact .unbounded hc

namespace Catalog

theorem enter_map (hg : types.Acyclic) (policy : TierPolicy) (d : Declaration)
    (h : ChainEnds ds maxAliasDepth d.name x) :
    (enter (Declarations.ofList ds) types policy d).map (fun e => (e.canonical, e.ownerType)) =
      x.outcome d.name := by
  rw [← follow_eq_iff] at h
  unfold enter
  rw [h]
  cases x with
  | canonical c owner =>
    obtain ⟨t, ht, -⟩ := TierPolicy.classify_of_acyclic hg policy c owner
    simp only [ht]
    rfl
  | missing m => rfl
  | unbounded => rfl

theorem exists_build_eq_ok_iff (hg : types.Acyclic) :
    (∃ catalog, build ds types policy = .ok catalog) ↔ ∀ d ∈ ds, ChainResolves ds d.name := by
  rcases build_spec hg policy ds with ⟨hr, hb⟩ | ⟨n, ⟨⟨⟨d, hd, rfl⟩, hn⟩, -⟩, err, -, hb⟩
  · exact ⟨fun _ => hr, fun _ => hb⟩
  · rw [hb]
    exact ⟨nofun, fun hr => absurd (hr d hd) hn⟩

theorem chainEnds_of_build (h : build ds types policy = .ok catalog) {d : Declaration}
    (hd : d ∈ ds) : ∃ e, catalog.get? d.name = some e ∧
      ChainEnds ds maxAliasDepth d.name (.canonical e.canonical e.ownerType) := by
  obtain ⟨e, he⟩ := Option.isSome_iff_exists.mp ((contains_of_build h).mpr ⟨d, hd, rfl⟩)
  obtain ⟨k, hk, hc, hdef⟩ := chain_of_get? h he
  exact ⟨e, he, .canonical hk hc hdef⟩

theorem build_eq_error_iff_chainError (hg : types.Acyclic) : build ds types policy = .error err ↔
    ∃ n, IsFirst (· < ·) (fun n => (∃ d ∈ ds, d.name = n) ∧ ¬ ChainResolves ds n) n ∧
      ChainError ds n err := by
  rcases build_spec hg policy ds with ⟨hr, catalog, hb⟩ | ⟨n, hn, err', he, hb⟩
  · rw [hb]
    refine ⟨nofun, ?_⟩
    rintro ⟨n, ⟨⟨⟨d, hd, rfl⟩, hn⟩, -⟩, -⟩
    exact absurd (hr d hd) hn
  · rw [hb, Except.error.injEq]
    constructor
    · rintro rfl
      exact ⟨n, hn, he⟩
    · rintro ⟨n', hn', he'⟩
      obtain rfl := hn.unique (fun _ _ => String.lt_asymm) hn'
      obtain ⟨x, hx, ho⟩ := chainError_iff.mp he
      obtain ⟨y, hy, ho'⟩ := chainError_iff.mp he'
      rw [hx.unique hy, ho'] at ho
      exact (Except.error.inj ho).symm

/-- A chain ends in exactly one way, and is unbounded exactly if it neither ends nor breaks off
within the bound, as in a loop. The outcome decides about the entry of a name; declarations without
a bad outcome have a catalog, and the least name with one refuses all others. -/
theorem chain_outcomes (hg : types.Acyclic) (ds : List Declaration) (policy : TierPolicy) :
    (∀ n, ∃! x, ChainEnds ds maxAliasDepth n x) ∧
    (∀ n, ChainEnds ds maxAliasDepth n .unbounded ↔ ∀ k ≤ maxAliasDepth, ∀ m,
      AliasChain ds k n m → ∃ t, definition? ds m = some (.aliasOf t)) ∧
    (∀ n m j k, AliasChain ds j n m → AliasChain ds (k + 1) m m →
      ChainEnds ds maxAliasDepth n .unbounded) ∧
    (∀ d x, ChainEnds ds maxAliasDepth d.name x →
      (enter (Declarations.ofList ds) types policy d).map (fun e => (e.canonical, e.ownerType)) =
        x.outcome d.name) ∧
    ((∃ catalog, build ds types policy = .ok catalog) ↔
      ∀ d ∈ ds, ∃ c owner, ChainEnds ds maxAliasDepth d.name (.canonical c owner)) ∧
    (∀ catalog, build ds types policy = .ok catalog → ∀ d ∈ ds, ∃ e,
      catalog.get? d.name = some e ∧
        ChainEnds ds maxAliasDepth d.name (.canonical e.canonical e.ownerType)) ∧
    (∀ err, build ds types policy = .error err ↔ ∃ n x,
      IsFirst (· < ·) (fun n => (∃ d ∈ ds, d.name = n) ∧
        ¬ ∃ c owner, ChainEnds ds maxAliasDepth n (.canonical c owner)) n ∧
      ChainEnds ds maxAliasDepth n x ∧ x.outcome n = .error err) := by
  refine ⟨fun n => ?unique, fun n => chainEnds_unbounded_iff, fun n m j k => ?loop,
    fun d x => enter_map hg policy d, ?accepted, fun catalog h d => chainEnds_of_build h,
    fun err => ?refused⟩
  case unique =>
    exact ⟨_, chainEnds_follow ds maxAliasDepth n, fun x hx => (follow_eq_iff.mpr hx).symm⟩
  case loop => exact chainEnds_unbounded_of_loop
  case accepted =>
    simp only [← chainResolves_iff_chainEnds]
    exact exists_build_eq_ok_iff hg
  case refused =>
    simp only [← chainResolves_iff_chainEnds]
    rw [build_eq_error_iff_chainError hg]
    simp only [chainError_iff, exists_and_left]

/-- Nine aliases in a row, and an alias of a name without declaration. -/
def aliasLadder : List Declaration :=
  (List.range 9).map (fun i => ⟨s!"vkHop{i}", .aliasOf s!"vkHop{i + 1}"⟩) ++
    [⟨"vkHop9", .canonical (some "VkDevice")⟩, ⟨"vkLost", .aliasOf "vkMissing"⟩]

theorem acyclic_empty : TypeGraph.Acyclic ∅ :=
  fun _ ha => absurd ha.mem_names List.not_mem_nil

/-- Eight aliases are followed to the end, nine are not, and their head refuses the ladder. -/
theorem chain_outcomes_aliasLadder : TypeGraph.Acyclic ∅ ∧
    (enter (Declarations.ofList aliasLadder) ∅ .vulkan ⟨"vkHop1", .aliasOf "vkHop2"⟩).map
      (fun e => (e.canonical, e.ownerType)) = .ok ("vkHop9", some "VkDevice") ∧
    (enter (Declarations.ofList aliasLadder) ∅ .vulkan ⟨"vkLost", .aliasOf "vkMissing"⟩).map
      (fun e => (e.canonical, e.ownerType)) = .error (.danglingReference "vkMissing" "vkLost") ∧
    build aliasLadder ∅ .vulkan = .error (.cyclicAlias "vkHop0") := by
  obtain ⟨-, -, -, henter, -, -, hrefused⟩ := chain_outcomes acyclic_empty aliasLadder .vulkan
  have hends : ∀ {n x}, (Declarations.ofList aliasLadder).follow maxAliasDepth n = x →
      ChainEnds aliasLadder maxAliasDepth n x := follow_eq_iff.mp
  have hhead : ChainEnds aliasLadder maxAliasDepth "vkHop0" .unbounded := hends (by decide +kernel)
  refine ⟨acyclic_empty, ?_, ?_, ?_⟩
  · exact henter _ (.canonical "vkHop9" (some "VkDevice")) (hends (by decide +kernel))
  · exact henter _ (.missing "vkMissing") (hends (by decide +kernel))
  · refine (hrefused _).mpr ⟨"vkHop0", .unbounded, ⟨⟨?_, ?_⟩, ?_⟩, hhead, rfl⟩
    · decide +kernel
    · rintro ⟨c, owner, h⟩
      cases hhead.unique h
    · rintro n ⟨⟨d, hd, rfl⟩, -⟩
      have hleast : ∀ d ∈ aliasLadder, d.name = "vkHop0" ∨ "vkHop0" < d.name := by decide +kernel
      exact hleast d hd

end Catalog

end LoadTiers
