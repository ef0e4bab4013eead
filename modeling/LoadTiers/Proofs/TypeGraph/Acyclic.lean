import LoadTiers.Tier
import LoadTiers.Proofs.TypeGraph.Search
import Mathlib.Tactic.ByContra

/-! # Acyclic type graphs

Where no parent has the empty name, the check accepts exactly the acyclic graphs, and it refuses
with a type on a cycle. In an acyclic graph the search for a base is exact, so that the tier of an
entry point is always found.
-/

namespace LoadTiers

namespace TypeGraph

variable {g : TypeGraph} {a b : String}

def Acyclic (g : TypeGraph) : Prop := ∀ a, ¬ Ancestor g a a

def NamesParents (g : TypeGraph) : Prop := ∀ a, "" ∉ g.parents a

theorem NamesParents.not_ancestor (hg : g.NamesParents) : ¬ Ancestor g a "" := by
  intro h
  obtain ⟨c, -, hc⟩ := h.exists_child
  exact hg c hc

theorem Ancestor.mem_names (h : Ancestor g a b) : a ∈ g.names := by
  by_contra ha
  obtain ⟨p, hm, -⟩ := ancestor_iff.mp h
  rw [parents_of_not_mem_names ha] at hm
  exact List.not_mem_nil hm

/-- One state goes through all the walks of the check. As the empty base is never found, the path
is empty again after each of them. -/
theorem checkAll_spec (hg : g.NamesParents) (as : List String) {finished : NameSet}
    (hs : Settled g "" [] finished) (hc : ∀ a ∈ finished, ¬ Ancestor g a a) :
    (checkAll g [] finished as = .ok () ∧ ∀ a ∈ as, ¬ Ancestor g a a) ∨
      ∃ t, checkAll g [] finished as = .error (.cyclicTypeGraph t) ∧ Ancestor g t t := by
  induction as generalizing finished with
  | nil => exact .inl ⟨rfl, by simp⟩
  | cons a as ih =>
    have h := visit_ends hs a
    rw [checkAll]
    generalize g.visit "" [] finished a = o at h
    cases h with
    | found h => exact absurd h hg.not_ancestor
    | exhausted hs' hm _ hc' =>
      rcases ih hs' (hc' hc) with ⟨h, has⟩ | h
      · refine .inl ⟨h, ?_⟩
        rw [List.forall_mem_cons]
        exact ⟨hc' hc a ((hm a).mpr (.inr (.inl rfl))), has⟩
      · exact .inr h
    | @cycle t _ ht => exact .inr ⟨t, rfl, by simpa using ht⟩

theorem checkAcyclic_spec (hg : g.NamesParents) :
    (g.checkAcyclic = .ok () ∧ g.Acyclic) ∨
      ∃ t, g.checkAcyclic = .error (.cyclicTypeGraph t) ∧ Ancestor g t t := by
  rcases checkAll_spec hg g.names (settled_empty g "" [])
    (fun a ha => absurd ha List.not_mem_nil) with ⟨h, ha⟩ | h
  · exact .inl ⟨h, fun a hc => ha a hc.mem_names hc⟩
  · exact .inr h

theorem checkAcyclic_eq_ok_iff (hg : g.NamesParents) : g.checkAcyclic = .ok () ↔ g.Acyclic := by
  rcases checkAcyclic_spec hg with ⟨h, ha⟩ | ⟨t, h, ht⟩
  · simp [h, ha]
  · rw [h]
    exact ⟨nofun, fun ha => absurd ht (ha t)⟩

theorem exists_checkAcyclic_eq_error (hg : g.NamesParents) (ha : ¬ g.Acyclic) :
    ∃ t, g.checkAcyclic = .error (.cyclicTypeGraph t) ∧ Ancestor g t t := by
  rcases checkAcyclic_spec hg with ⟨_, h⟩ | h
  · exact absurd h ha
  · exact h

theorem Acyclic.isDescendant (hg : g.Acyclic) (a b : String) :
    ∃ x, g.isDescendant a b = .ok x ∧ (x = true ↔ Descends g a b) :=
  isDescendant_of_no_cycle fun t _ => hg t

end TypeGraph

namespace TierPolicy

variable {policy : TierPolicy} {types : TypeGraph} {name : String} {owner : Option String}

/-- The tier that a policy gives to a canonical entry point, where `below` tells which owner types
belong to the second scope. -/
inductive Assigns (policy : TierPolicy) (below : String → Prop) (name : String)
    (owner : Option String) : Tier → Prop where

  | global (h : name ∈ policy.globalEntryPoints) : Assigns policy below name owner .global

  | loader (h : name ∉ policy.globalEntryPoints) (hn : name = policy.scopeBLoader) :
      Assigns policy below name owner .scopeA

  | scopeB (h : name ∉ policy.globalEntryPoints) (hn : name ≠ policy.scopeBLoader)
      {o : String} (ho : owner = some o) (hb : below o) : Assigns policy below name owner .scopeB

  | scopeA (h : name ∉ policy.globalEntryPoints) (hn : name ≠ policy.scopeBLoader)
      (ho : ∀ o, owner = some o → ¬ below o) : Assigns policy below name owner .scopeA

theorem classify_of_acyclic (hg : types.Acyclic) (policy : TierPolicy) (name : String)
    (owner : Option String) :
    ∃ t, policy.classify types name owner = .ok t ∧
      policy.Assigns (TypeGraph.Descends types · policy.scopeBRoot) name owner t := by
  unfold classify
  split
  · next h => exact ⟨.global, rfl, .global h⟩
  · next h =>
    split
    · next hn => exact ⟨.scopeA, rfl, .loader h hn⟩
    · next hn =>
      cases owner with
      | none => exact ⟨.scopeA, rfl, .scopeA h hn nofun⟩
      | some o =>
        obtain ⟨x, hx, hb⟩ := hg.isDescendant o policy.scopeBRoot
        simp only [hx]
        cases x with
        | true => exact ⟨.scopeB, rfl, .scopeB h hn rfl (hb.mp rfl)⟩
        | false =>
          refine ⟨.scopeA, rfl, .scopeA h hn fun o' ho hd => ?_⟩
          cases ho
          exact Bool.false_ne_true (hb.mpr hd)

end TierPolicy

end LoadTiers
