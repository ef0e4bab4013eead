import LoadTiers.Proofs.Acceptance
import LoadTiers.Proofs.TypeGraph.Check

/-! # Cyclic types

A graph whose types list no empty parent is refused for its cycles exactly if it has one, by the
check and by an assembly. An empty parent hides cycles, or makes the check see one that is not
there.
-/

namespace LoadTiers.TypeGraph

variable {g : TypeGraph} {a p : String} {ds : List Declaration} {fs : FeatureSet}
  {policy : TierPolicy}

theorem mem_parents_iff :
    p ∈ g.parents a ↔ ∃ node ∈ g.toList, node.name = a ∧ p ∈ node.parents := by
  unfold parents
  cases h : g.get? a with
  | none =>
    simp only [NameSet.not_mem_empty, false_iff, not_exists, not_and]
    exact fun node hm hn => absurd hn (Roster.get?_eq_none_iff.mp h node hm)
  | some node =>
    obtain ⟨hm, hn⟩ := Roster.get?_eq_some_iff.mp h
    constructor
    · exact fun hp => ⟨node, hm, hn, hp⟩
    · rintro ⟨node', hm', hn', hp⟩
      have h' := Roster.get?_eq_some_iff.mpr ⟨hm', hn'⟩
      obtain rfl := Option.some.inj (h.symm.trans h')
      exact hp

theorem namesParents_of_nodes (h : ∀ node ∈ g.toList, "" ∉ node.parents) : g.NamesParents := by
  intro a ha
  obtain ⟨node, hm, -, hp⟩ := mem_parents_iff.mp ha
  exact h node hm hp

theorem acyclic_of_rank (rank : String → Nat)
    (h : ∀ node ∈ g.toList, ∀ p ∈ node.parents.toList, rank p < rank node.name) : g.Acyclic := by
  have hp : ∀ {a p}, p ∈ g.parents a → rank p < rank a := by
    intro a p hp
    obtain ⟨node, hm, rfl, hp'⟩ := mem_parents_iff.mp hp
    exact h node hm p hp'
  have hlt : ∀ {a b}, Ancestor g a b → rank b < rank a := by
    intro a b hab
    induction hab with
    | parent h => exact hp h
    | step h _ ih => exact Nat.lt_trans ih (hp h)
  exact fun a ha => Nat.lt_irrefl _ (hlt ha)

theorem assemble_ne_cyclicTypeGraph (hg : g.NamesParents) (ha : g.Acyclic) (ds : List Declaration)
    (fs : FeatureSet) (policy : TierPolicy) (t : String) :
    Registry.assemble g ds fs policy ≠ .error (.cyclicTypeGraph t) := by
  rcases Catalog.build_spec ha policy ds with ⟨-, catalog, hb⟩ | ⟨n, -, e, he, hb⟩
  · have hends := @Registry.assemble_of_build g ds fs policy catalog hg ha hb
    rcases hends with ⟨-, R, h⟩ | ⟨u, -, h⟩
    · simp [h]
    · simp [h]
  · rw [Registry.assemble_of_acyclic hg ha, hb, error_bind]
    cases he <;> simp

theorem acyclic_of_assemble {R : Registry} (hg : g.NamesParents)
    (h : Registry.assemble g ds fs policy = .ok R) : g.Acyclic :=
  (checkAcyclic_eq_ok_iff hg).mp (Registry.of_assemble h).1

theorem exists_assemble_of_checkAcyclic (h : g.checkAcyclic = .ok ()) (policy : TierPolicy) :
    ∃ R, Registry.assemble g [] ∅ policy = .ok R := by
  have hb : Catalog.build [] g policy = .ok ∅ := rfl
  have hu : (∅ : FeatureSet).uses = [] := by cbv
  refine ⟨_, Registry.assemble_of_contains h hb fun u hm => ?_⟩
  rw [← Registry.mem_featureSet_uses, hu] at hm
  exact absurd hm List.not_mem_nil

/-- The check accepts the graphs in which each type lists the empty name as a parent, or else is on
no cycle and does not descend from that name. So it is exact, and an assembly with it, wherever no
type lists the empty name. -/
theorem checkAcyclic_exact (g : TypeGraph) :
    (g.checkAcyclic = .ok () ↔
      ∀ a, "" ∈ g.parents a ∨ ¬ Ancestor g a "" ∧ ¬ Ancestor g a a) ∧
    (∀ e, g.checkAcyclic = .error e →
      ∃ t, e = .cyclicTypeGraph t ∧ (Ancestor g t t ∨ Ancestor g t "")) ∧
    (g.NamesParents →
      (g.checkAcyclic = .ok () ↔ g.Acyclic) ∧
      (∀ e, g.checkAcyclic = .error e → ∃ t, e = .cyclicTypeGraph t ∧ Ancestor g t t) ∧
      ∀ ds fs policy,
        (∀ R, Registry.assemble g ds fs policy = .ok R → g.Acyclic) ∧
        (g.Acyclic → ∀ t, Registry.assemble g ds fs policy ≠ .error (.cyclicTypeGraph t))) := by
  refine ⟨checkAcyclic_eq_ok_iff_forall, fun e => exists_of_checkAcyclic_eq_error, fun hg => ?_⟩
  refine ⟨checkAcyclic_eq_ok_iff hg, fun e h => ?_, fun ds fs policy => ⟨fun R => ?_, fun ha => ?_⟩⟩
  · obtain ⟨t, rfl, ht | ht⟩ := exists_of_checkAcyclic_eq_error h
    · exact ⟨t, rfl, ht⟩
    · exact absurd ht hg.not_ancestor
  · exact acyclic_of_assemble hg
  · exact assemble_ne_cyclicTypeGraph hg ha ds fs policy

/-- A graph with a cycle is refused by name, and one without is no obstacle. -/
theorem checkAcyclic_loopTypes :
    (loopTypes.NamesParents ∧ loopTypes.checkAcyclic = .error (.cyclicTypeGraph "VkLoop") ∧
      Ancestor loopTypes "VkLoop" "VkLoop" ∧ ¬ loopTypes.Acyclic) ∧
    ∃ R, Registry.assemble Registry.deviceTypes [] ∅ .vulkan = .ok R ∧
      Registry.deviceTypes.Acyclic := by
  have hg : loopTypes.NamesParents := namesParents_of_nodes (by decide +kernel)
  have hc : loopTypes.checkAcyclic = .error (.cyclicTypeGraph "VkLoop") := by cbv
  obtain ⟨hok, herror, -⟩ := (checkAcyclic_exact loopTypes).2.2 hg
  refine ⟨⟨hg, hc, ?_, fun ha => ?_⟩, ?_⟩
  · obtain ⟨t, ht, h⟩ := herror _ hc
    cases ht
    exact h
  · cases hc.symm.trans (hok.mpr ha)
  · have hn := Registry.namesParents_deviceTypes
    obtain ⟨R, hR⟩ := exists_assemble_of_checkAcyclic
      ((checkAcyclic_eq_ok_iff hn).mpr Registry.acyclic_deviceTypes) .vulkan
    exact ⟨R, hR, (((checkAcyclic_exact _).2.2 hn).2.2 [] ∅ .vulkan).1 R hR⟩

/-- A type that is its own parent and lists the empty name too. -/
def hiddenLoop : TypeGraph := TypeGraph.declare ∅ "VkDevice" (.ofList ["", "VkDevice"])

def emptyRoot : TypeGraph :=
  (TypeGraph.declare ∅ "VkDevice" (.ofList [""])).declare "VkCommandPool" (.ofList ["VkDevice"])

/-- With an empty parent a cycle is accepted, and an acyclic graph is refused. -/
theorem checkAcyclic_empty_parent :
    (hiddenLoop.checkAcyclic = .ok () ∧ Ancestor hiddenLoop "VkDevice" "VkDevice" ∧
      ∃ R, Registry.assemble hiddenLoop [] ∅ .vulkan = .ok R) ∧
    emptyRoot.checkAcyclic = .error (.cyclicTypeGraph "VkDevice") ∧ emptyRoot.Acyclic := by
  have hc : hiddenLoop.checkAcyclic = .ok () := by cbv
  refine ⟨⟨hc, .parent (by decide +kernel), exists_assemble_of_checkAcyclic hc .vulkan⟩, by cbv, ?_⟩
  exact acyclic_of_rank String.length (by decide +kernel)

end LoadTiers.TypeGraph
