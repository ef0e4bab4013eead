import LoadTiers.Proofs.Acceptance
import LoadTiers.Proofs.Markup.Parts
import Mathlib.Logic.Relation

/-! # Tiers of a document

A document that is read has no cycle among the parents that its types list, and the tiers of its
entry points follow from what lies beyond the owner types along these parents.
-/

namespace LoadTiers.Registry

open Xml

variable {types : List Node} {a b : String}

theorem ancestor_iff_transGen :
    TypeGraph.Ancestor (typeGraph types) a b ↔ Relation.TransGen (ListsParent types) a b := by
  constructor
  · intro h
    induction h with
    | parent h => exact .single (mem_parents_typeGraph.mp h)
    | step h _ ih => exact .head (mem_parents_typeGraph.mp h) ih
  · intro h
    induction h using Relation.TransGen.head_induction_on with
    | single h => exact .parent (mem_parents_typeGraph.mpr h)
    | head h _ ih => exact .step (mem_parents_typeGraph.mpr h) ih

theorem descends_iff_reflTransGen :
    TypeGraph.Descends (typeGraph types) a b ↔ Relation.ReflTransGen (ListsParent types) a b := by
  rw [TypeGraph.Descends, ancestor_iff_transGen, Relation.reflTransGen_iff_eq_or_transGen, eq_comm]

/-- A document that is read has an acyclic type graph in which searches are exact, and each of its
entry points has the tier of its canonical declaration. -/
theorem read_tiers (text : String) (policy : TierPolicy) (R : Registry)
    (h : read text policy = .ok R) :
    ∃ root ds, document? text = some root ∧ (commandElements root).mapM declaration = .ok ds ∧
      (∀ a, ¬ Relation.TransGen (ListsParent (typeElements root)) a a) ∧
      (∀ a b, ∃ x, R.types.isDescendant a b = .ok x ∧
        (x = true ↔ Relation.ReflTransGen (ListsParent (typeElements root)) a b)) ∧
      (∀ n, R.catalog.contains n ↔ ∃ d ∈ ds, d.name = n) ∧
      ∀ n e, R.catalog.get? n = some e → ∃ k owner, AliasChain ds k n e.canonical ∧
        definition? ds e.canonical = some (.canonical owner) ∧
        policy.Assigns
          (fun o => Relation.ReflTransGen (ListsParent (typeElements root)) o policy.scopeBRoot)
          e.canonical owner e.tier := by
  obtain ⟨root, R', hd, hroot, rfl⟩ := read_eq_ok_iff.mp h
  obtain ⟨-, ds, versions, extensions, R, hds, -, -, ha, rfl⟩ := ofRoot_eq_ok_iff.mp hroot
  obtain ⟨hc, hb, -, hR⟩ := of_assemble ha
  have ht : R.types = typeGraph (typeElements root) := by rw [hR]
  have hg : (typeGraph (typeElements root)).Acyclic :=
    (TypeGraph.checkAcyclic_eq_ok_iff (namesParents_typeGraph _)).mp hc
  refine ⟨root, ds, hd, hds, ?acyclic, ?search, fun n => Catalog.contains_of_build hb, ?tier⟩
  case acyclic =>
    intro a hcycle
    exact hg a (ancestor_iff_transGen.mpr hcycle)
  case search =>
    intro a b
    simp only [ht, ← descends_iff_reflTransGen]
    exact hg.isDescendant a b
  case tier =>
    intro n e he
    obtain ⟨k, -, hchain, hcan⟩ := Catalog.chain_of_get? hb he
    have hassign := Catalog.assigns_of_get? hg hb he
    simp only [descends_iff_reflTransGen] at hassign
    exact ⟨k, e.ownerType, hchain, hcan, hassign⟩

def queueDocument : String :=
  "<registry>
    <types><type name=\"VkQueue\" parent=\"VkDevice\"/></types>
    <commands><command>
      <proto><name>vkQueueWaitIdle</name></proto><param><type>VkQueue</type></param>
    </command></commands>
  </registry>"

def queueTypes : TypeGraph := .ofList [⟨"VkQueue", .ofList ["VkDevice"]⟩]

def queueCommands : List Declaration := [⟨"vkQueueWaitIdle", .canonical (some "VkQueue")⟩]

set_option maxRecDepth 2000 in
theorem parts_queueDocument :
    (document? queueDocument).map (fun root =>
      (root.hasTag "registry", typeGraph (typeElements root),
        ((commandElements root).mapM declaration).toOption,
        (root.elements "feature").isEmpty, (extensionElements root).isEmpty)) =
      some (true, queueTypes, some queueCommands, true, true) := by
  have h : queueDocument = .ofList _ := rfl
  rw [h, document?_ofList]
  decide +kernel

theorem exists_root_queueDocument : ∃ root, document? queueDocument = some root ∧
    root.hasTag "registry" ∧ typeGraph (typeElements root) = queueTypes ∧
    (commandElements root).mapM declaration = .ok queueCommands ∧
    root.elements "feature" = [] ∧ extensionElements root = [] := by
  obtain ⟨root, hd, hp⟩ := Option.map_eq_some_iff.mp parts_queueDocument
  simp only [Prod.mk.injEq, List.isEmpty_iff] at hp
  obtain ⟨ht, hg, hc, hf, he⟩ := hp
  refine ⟨root, hd, ht, hg, ?_, hf, he⟩
  cases hds : (commandElements root).mapM declaration with
  | error e =>
    rw [hds] at hc
    cases hc
  | ok ds =>
    rw [hds] at hc
    exact congrArg _ (Option.some.inj hc)

theorem chainResolves_queueCommands : ∀ d ∈ queueCommands, ChainResolves queueCommands d.name := by
  simp only [chainResolves_iff, queueCommands, List.forall_mem_singleton]
  exact ⟨_, _, rfl⟩

theorem exists_assemble_queueTypes : ∃ R, assemble queueTypes queueCommands ∅ .vulkan = .ok R := by
  obtain ⟨root, -, -, hg, -⟩ := exists_root_queueDocument
  have hn : queueTypes.NamesParents := hg ▸ namesParents_typeGraph _
  have ha : queueTypes.Acyclic := (TypeGraph.checkAcyclic_eq_ok_iff hn).mp (by cbv)
  have hu : (∅ : FeatureSet).uses = [] := by cbv
  refine (exists_assemble_eq_ok_iff hn).mpr ⟨ha, chainResolves_queueCommands, fun u h => ?_⟩
  rw [← mem_featureSet_uses, hu] at h
  exact absurd h List.not_mem_nil

theorem exists_read_queueDocument : ∃ R, read queueDocument .vulkan = .ok R := by
  obtain ⟨root, hd, ht, hg, hc, hf, he⟩ := exists_root_queueDocument
  obtain ⟨R, hR⟩ := exists_assemble_queueTypes
  have hf' : (root.elements "feature").mapM apiVersion = .ok [] := by
    rw [hf]
    rfl
  have he' : (extensionElements root).mapM extension = .ok [] := by
    rw [he]
    rfl
  have hroot := ofRoot_eq_ok_iff.mpr
    ⟨ht, queueCommands, [], [], R, hc, hf', he', hg.symm ▸ hR, rfl⟩
  exact ⟨_, read_eq_ok_iff.mpr ⟨root, _, hd, hroot, rfl⟩⟩

/-- The command belongs to the second scope, as its owner type lies below devices. -/
theorem tier_queueDocument : ∃ R, read queueDocument .vulkan = .ok R ∧
    ∃ e, R.catalog.get? "vkQueueWaitIdle" = some e ∧ e.tier = .scopeB := by
  obtain ⟨R, hR⟩ := exists_read_queueDocument
  obtain ⟨root, ds, hd, hds, -, -, hn, htier⟩ := read_tiers queueDocument .vulkan R hR
  obtain ⟨root', hd', -, hg, hc, -, -⟩ := exists_root_queueDocument
  obtain rfl : root = root' := Option.some.inj (hd.symm.trans hd')
  obtain rfl : ds = queueCommands := Except.ok.inj (hds.symm.trans hc)
  obtain ⟨e, he⟩ := Option.isSome_iff_exists.mp ((hn "vkQueueWaitIdle").mpr ⟨_, .head _, rfl⟩)
  refine ⟨R, hR, e, he, ?_⟩
  obtain ⟨k, owner, hchain, hcan, hassign⟩ := htier _ e he
  have hq : definition? queueCommands "vkQueueWaitIdle" = some (.canonical (some "VkQueue")) := rfl
  generalize e.canonical = c at hchain hcan hassign
  generalize e.tier = t at hassign ⊢
  cases hchain with
  | cons ht _ => cases hq.symm.trans ht
  | nil =>
    cases hq.symm.trans hcan
    cases hassign with
    | global h => exact absurd h (by decide)
    | loader _ h => exact absurd h (by decide)
    | scopeB => rfl
    | scopeA _ _ h =>
      refine absurd (.single ?_) (h "VkQueue" rfl)
      exact mem_parents_typeGraph.mp (hg ▸ by decide)

end LoadTiers.Registry
