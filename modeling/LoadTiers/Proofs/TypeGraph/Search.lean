import LoadTiers.Proofs.TypeGraph.Walk

/-! # Searches for a base

A search ends in every graph, in one with cycles too. A base that it finds is there. If it finds
none, then it has seen all ancestors, and no cycle can be reached. If it refuses the graph, then it
has reached the cycle that it names.
-/

namespace LoadTiers.TypeGraph

variable {g : TypeGraph} {a b : String}

/-- What a search for `b` from `a` may say of the graph. -/
inductive SearchEnds (g : TypeGraph) (a b : String) : Except RegistryError Bool → Prop where

  | found (h : Descends g a b) : SearchEnds g a b (.ok true)

  | absent (h : ¬ Descends g a b) (hc : ∀ t, Descends g a t → ¬ Ancestor g t t) :
      SearchEnds g a b (.ok false)

  | cycle {t : String} (hr : Descends g a t) (ht : Ancestor g t t) :
      SearchEnds g a b (.error (.cyclicTypeGraph t))

theorem searchEnds_of_visit {finished : NameSet} (hab : a ≠ b)
    (h : Ends g b [] ∅ (Descends g a) (Ancestor g a b) (.exhausted finished)) :
    SearchEnds g a b (.ok false) := by
  cases h with | exhausted _ hm hb hc =>
  refine .absent ?_ fun t ht => ?_
  · rintro (h | h)
    · exact hab h
    · exact hb h
  · -- the search starts with no finished types, and has finished `t`
    exact hc (fun x hx => absurd hx NameSet.not_mem_empty) t ((hm t).mpr (.inr ht))

theorem searchEnds_isDescendant (g : TypeGraph) (a b : String) :
    SearchEnds g a b (g.isDescendant a b) := by
  unfold isDescendant
  split
  · next hab => exact .found (.inl hab)
  · next hab =>
    have h := visit_ends (settled_empty g b []) a
    generalize g.visit b [] ∅ a = o at h ⊢
    cases o with
    | found finished path =>
      cases h with | found h => exact .found (.inr h)
    | exhausted finished => exact searchEnds_of_visit hab h
    | cycle t =>
      cases h with | cycle hr ht => exact .cycle hr (ht.resolve_left List.not_mem_nil)

theorem isDescendant_of_no_cycle (hc : ∀ t, Descends g a t → ¬ Ancestor g t t) :
    ∃ x, g.isDescendant a b = .ok x ∧ (x = true ↔ Descends g a b) := by
  have h := searchEnds_isDescendant g a b
  generalize g.isDescendant a b = r at h ⊢
  cases h with
  | found h => exact ⟨true, rfl, by simp [h]⟩
  | absent h _ => exact ⟨false, rfl, by simp [h]⟩
  | cycle hr ht => exact absurd ht (hc _ hr)

/-- A search ends in any graph: with an answer that is right, or with a type on a cycle that it has
reached. It answers wherever no cycle can be reached. -/
theorem isDescendant_sound (g : TypeGraph) (a b : String) :
    ((∃ x, g.isDescendant a b = .ok x) ∨
      ∃ t, g.isDescendant a b = .error (.cyclicTypeGraph t)) ∧
    (g.isDescendant a b = .ok true → a = b ∨ Ancestor g a b) ∧
    (g.isDescendant a b = .ok false →
      a ≠ b ∧ ¬ Ancestor g a b ∧ ∀ t, a = t ∨ Ancestor g a t → ¬ Ancestor g t t) ∧
    (∀ t, g.isDescendant a b = .error (.cyclicTypeGraph t) →
      (a = t ∨ Ancestor g a t) ∧ Ancestor g t t) ∧
    ((∀ t, a = t ∨ Ancestor g a t → ¬ Ancestor g t t) →
      ∃ x, g.isDescendant a b = .ok x ∧ (x = true ↔ a = b ∨ Ancestor g a b)) := by
  have h := searchEnds_isDescendant g a b
  refine ⟨?ends, ?found, ?absent, ?cycle, isDescendant_of_no_cycle⟩
  case ends =>
    generalize g.isDescendant a b = r at h
    cases h with
    | found => exact .inl ⟨true, rfl⟩
    | absent => exact .inl ⟨false, rfl⟩
    | @cycle t => exact .inr ⟨t, rfl⟩
  case found =>
    intro hr
    rw [hr] at h
    cases h with | found h => exact h
  case absent =>
    intro hr
    rw [hr] at h
    cases h with | absent h hc => exact ⟨fun hab => h (.inl hab), fun hab => h (.inr hab), hc⟩
  case cycle =>
    intro t hr
    rw [hr] at h
    cases h with | cycle hr ht => exact ⟨hr, ht⟩

def loopTypes : TypeGraph := .ofList
  [⟨"VkQueue", .ofList ["VkDevice"]⟩, ⟨"VkDevice", .ofList ["VkInstance", "VkLoop"]⟩,
    ⟨"VkLoop", .ofList ["VkLoop"]⟩]

/-- The base is found before the cycle, or not at all; an undeclared type reaches no cycle. -/
theorem isDescendant_loopTypes :
    (loopTypes.isDescendant "VkQueue" "VkInstance" = .ok true ∧
      Ancestor loopTypes "VkQueue" "VkInstance") ∧
    (loopTypes.isDescendant "VkQueue" "VkSurface" = .error (.cyclicTypeGraph "VkLoop") ∧
      Ancestor loopTypes "VkLoop" "VkLoop") ∧
    (loopTypes.isDescendant "VkInstance" "VkQueue" = .ok false ∧
      ¬ Ancestor loopTypes "VkInstance" "VkQueue" ∧
      ∃ x, loopTypes.isDescendant "VkInstance" "VkSurface" = .ok x ∧
        (x = true ↔ "VkInstance" = "VkSurface" ∨ Ancestor loopTypes "VkInstance" "VkSurface")) := by
  have hfound : loopTypes.isDescendant "VkQueue" "VkInstance" = .ok true := by cbv
  have hcycle : loopTypes.isDescendant "VkQueue" "VkSurface" =
      .error (.cyclicTypeGraph "VkLoop") := by
    cbv
  have habsent : loopTypes.isDescendant "VkInstance" "VkQueue" = .ok false := by cbv
  obtain ⟨-, -, habsent', -⟩ := isDescendant_sound loopTypes "VkInstance" "VkQueue"
  obtain ⟨-, hn, hc⟩ := habsent' habsent
  refine ⟨⟨hfound, ?_⟩, ⟨hcycle, ?_⟩, habsent, hn, ?_⟩
  · exact ((isDescendant_sound loopTypes _ _).2.1 hfound).resolve_left (by decide)
  · exact ((isDescendant_sound loopTypes _ _).2.2.2.1 _ hcycle).2
  · exact (isDescendant_sound loopTypes "VkInstance" "VkSurface").2.2.2.2 hc

end LoadTiers.TypeGraph
