import LoadTiers.Proofs.TypeGraph.Acyclic

/-! # The check and the empty name

The check walks from each type with the empty name as the base. Where a type lists that name as a
parent, a walk ends there and leaves its path behind. What the check accepts then are the graphs in
which each other type is off all cycles and does not descend from the empty name.
-/

namespace LoadTiers.TypeGraph

variable {g : TypeGraph} {base a c : String} {path path' as : List String}
  {finished finished' : NameSet}

/-- The state that a walk from `a` leaves behind when it has found the base. -/
structure Left (g : TypeGraph) (base : String) (path : List String) (finished : NameSet)
    (a : String) (path' : List String) (finished' : NameSet) : Prop where
  settled : Settled g base path' finished'
  path_subset : path ⊆ path'
  start_mem : a ∈ path'
  ancestor_base : ∀ x ∈ path', x ∈ path ∨ Ancestor g x base
  exists_child : ∃ c ∈ path', c ∉ path ∧ base ∈ g.parents c
  off_cycles : (∀ x ∈ finished, ¬ Ancestor g x x) → ∀ x ∈ finished', ¬ Ancestor g x x

/-- The same for a walk through the parents `ps` of the last type on the path. -/
structure LeftAll (g : TypeGraph) (base : String) (path : List String) (finished : NameSet)
    (ps path' : List String) (finished' : NameSet) : Prop where
  settled : Settled g base path' finished'
  path_subset : path ⊆ path'
  ancestor_base : ∀ x ∈ path', x ∈ path ∨ Ancestor g x base
  exists_child : base ∈ ps ∨ ∃ c ∈ path', c ∉ path ∧ base ∈ g.parents c
  off_cycles : (∀ x ∈ finished, ¬ Ancestor g x x) → ∀ x ∈ finished', ¬ Ancestor g x x

theorem LeftAll.left (ha : a ∉ path) (hb : Ancestor g a base)
    (h : LeftAll g base (a :: path) finished (g.parents a).toList path' finished') :
    Left g base path finished a path' finished' := by
  have hsub := List.cons_subset.mp h.path_subset
  refine ⟨h.settled, hsub.2, hsub.1, fun x hx => ?_, ?_, h.off_cycles⟩
  · rcases h.ancestor_base x hx with hx | hx
    · rcases List.mem_cons.mp hx with rfl | hx
      · exact .inr hb
      · exact .inl hx
    · exact .inr hx
  · rcases h.exists_child with hp | ⟨c, hc, hn, hp⟩
    · exact ⟨a, hsub.1, ha, hp⟩
    · exact ⟨c, hc, fun h => hn (List.mem_cons_of_mem a h), hp⟩

theorem Left.leftAll (ps : List String) (h : Left g base path finished a path' finished') :
    LeftAll g base path finished ps path' finished' :=
  ⟨h.settled, h.path_subset, h.ancestor_base, .inr h.exists_child, h.off_cycles⟩

theorem LeftAll.cons {ps : List String} {fs : NameSet} (p : String)
    (hc : (∀ x ∈ finished, ¬ Ancestor g x x) → ∀ x ∈ fs, ¬ Ancestor g x x)
    (h : LeftAll g base path fs ps path' finished') :
    LeftAll g base path finished (p :: ps) path' finished' :=
  ⟨h.settled, h.path_subset, h.ancestor_base, h.exists_child.imp_left (List.mem_cons_of_mem p),
    fun hf => h.off_cycles (hc hf)⟩

theorem left_of_visit (hs : Settled g base path finished)
    (h : g.visit base path finished a = .found finished' path') :
    Left g base path finished a path' finished' := by
  revert hs h
  refine visit.induct g base
    (fun path finished a => Settled g base path finished →
      g.visit base path finished a = .found finished' path' →
        Left g base path finished a path' finished')
    (fun path finished ps => Settled g base path finished →
      g.visitAll base path finished ps = .found finished' path' →
        LeftAll g base path finished ps path' finished')
    ?finished ?onPath ?declared ?declaredCut ?undeclared ?nil ?base ?cons ?consCut path finished a
  case finished =>
    intro path finished a ha hs h
    rw [visit, if_pos ha] at h
    cases h
  case onPath =>
    intro path finished a hf ha hs h
    rw [visit, if_neg hf, dif_pos ha] at h
    cases h
  case declared =>
    intro path finished a hf ha hg fs ho ih hs h
    rw [visit, if_neg hf, dif_neg ha, dif_pos hg, ho] at h
    cases h
  case declaredCut =>
    intro path finished a hf ha hg ho ih hs h
    have hends := visit_ends hs a
    rw [h] at hends
    cases hends with | found hb =>
    rw [visit, if_neg hf, dif_neg ha, dif_pos hg] at h
    split at h
    · exact (ho _ ‹_›).elim
    · exact (ih (hs.cons hf) h).left ha hb
  case undeclared =>
    intro path finished a hf ha hg hs h
    rw [visit, if_neg hf, dif_neg ha, dif_neg hg] at h
    cases h
  case nil =>
    intro path finished hs h
    rw [visitAll] at h
    cases h
  case base =>
    intro path finished ps hs h
    rw [visitAll, if_pos rfl] at h
    cases h
    exact ⟨hs, List.Subset.refl _, fun x hx => .inl hx, .inl List.mem_cons_self, id⟩
  case cons =>
    intro path finished p ps hp fs ho ih ih' hs h
    have hends := visit_ends hs p
    rw [ho] at hends
    cases hends with | exhausted hs' _ _ hc =>
    rw [visitAll, if_neg hp, ho] at h
    exact (ih' hs' h).cons p hc
  case consCut =>
    intro path finished p ps hp ho ih hs h
    rw [visitAll, if_neg hp] at h
    split at h
    · exact (ho _ ‹_›).elim
    · exact (ih hs h).leftAll _

/-- What holds between two walks of the check. The path holds what earlier walks have left. -/
structure Underway (g : TypeGraph) (path : List String) (finished : NameSet) : Prop where
  settled : Settled g "" path finished
  ancestor_empty : ∀ x ∈ path, Ancestor g x ""
  off_cycles : ∀ x ∈ finished, ¬ Ancestor g x x

theorem underway_nil (g : TypeGraph) : Underway g [] ∅ := by
  refine ⟨settled_empty g "" [], fun x hx => ?_, fun x hx => ?_⟩
  · exact absurd hx List.not_mem_nil
  · exact absurd hx NameSet.not_mem_empty

inductive StepEnds (g : TypeGraph) (path : List String) (finished : NameSet) (a : String) :
    Outcome → Prop where

  | found {fs : NameSet} {ps : List String} (hu : Underway g ps fs)
      (hl : Left g "" path finished a ps fs) : StepEnds g path finished a (.found fs ps)

  | exhausted {fs : NameSet} (hu : Underway g path fs) (hb : ¬ Ancestor g a "")
      (hc : ¬ Ancestor g a a) : StepEnds g path finished a (.exhausted fs)

  | cycle {t : String} (h : Ancestor g t t ∨ Ancestor g t "") :
      StepEnds g path finished a (.cycle t)

theorem Underway.step (hu : Underway g path finished) (a : String) :
    StepEnds g path finished a (g.visit "" path finished a) := by
  have hends := visit_ends hu.settled a
  cases ho : g.visit "" path finished a with
  | found fs ps =>
    have hl := left_of_visit hu.settled ho
    refine .found ⟨hl.settled, fun x hx => ?_, hl.off_cycles hu.off_cycles⟩ hl
    rcases hl.ancestor_base x hx with hx | hx
    · exact hu.ancestor_empty x hx
    · exact hx
  | exhausted fs =>
    rw [ho] at hends
    cases hends with | exhausted hs hm hb hc =>
    have hf := hc hu.off_cycles
    exact .exhausted ⟨hs, hu.ancestor_empty, hf⟩ hb (hf a ((hm a).mpr (.inr (.inl rfl))))
  | cycle t =>
    rw [ho] at hends
    cases hends with | cycle hr ht =>
    exact .cycle (ht.symm.imp_right (hu.ancestor_empty t))

/-- A refusal names a type on a cycle, or one that descends from the empty name. -/
theorem checkAll_error (hu : Underway g path finished) {e : RegistryError}
    (h : checkAll g path finished as = .error e) :
    ∃ t, e = .cyclicTypeGraph t ∧ (Ancestor g t t ∨ Ancestor g t "") := by
  induction as generalizing path finished with
  | nil => cases h
  | cons a as ih =>
    have hends := hu.step a
    rw [checkAll] at h
    generalize g.visit "" path finished a = o at h hends
    cases hends with
    | found hu' _ => exact ih hu' h
    | exhausted hu' _ _ => exact ih hu' h
    | @cycle t ht =>
      cases h
      exact ⟨t, rfl, ht⟩

theorem not_mem_path_of_checkAll (hu : Underway g path finished)
    (h : checkAll g path finished as = .ok ()) : ∀ x ∈ path, x ∉ as := by
  induction as generalizing path finished with
  | nil => exact fun _ _ => List.not_mem_nil
  | cons a as ih =>
    intro x hx hxa
    have hends := hu.step a
    rw [checkAll] at h
    rcases List.mem_cons.mp hxa with rfl | hxa
    · have hf : x ∉ finished := fun hf => hu.settled.not_mem_path x hf hx
      rw [visit, if_neg hf, dif_pos hx] at h
      cases h
    · generalize g.visit "" path finished a = o at h hends
      cases hends with
      | found hu' hl => exact ih hu' h x (hl.path_subset hx) hxa
      | exhausted hu' _ _ => exact ih hu' h x hx hxa
      | cycle => cases h

/-- Every type has its turn or lies on the path if it lists the empty name. So a walk that finds the
name further up ends at a type that is still to come, and would be refused. -/
theorem of_checkAll (hu : Underway g path finished)
    (hp : ∀ c, "" ∈ g.parents c → c ∈ path ∨ c ∈ as)
    (h : checkAll g path finished as = .ok ()) :
    ∀ a ∈ as, "" ∈ g.parents a ∨ ¬ Ancestor g a "" ∧ ¬ Ancestor g a a := by
  induction as generalizing path finished with
  | nil => exact fun _ ha => absurd ha List.not_mem_nil
  | cons a as ih =>
    have hends := hu.step a
    rw [checkAll] at h
    rw [List.forall_mem_cons]
    generalize g.visit "" path finished a = o at h hends
    cases hends with
    | @found fs ps hu' hl =>
      have hp' : ∀ c, "" ∈ g.parents c → c ∈ ps ∨ c ∈ as := fun c hc => by
        rcases hp c hc with hm | hm
        · exact .inl (hl.path_subset hm)
        · rcases List.mem_cons.mp hm with rfl | hm
          · exact .inl hl.start_mem
          · exact .inr hm
      refine ⟨.inl ?_, ih hu' hp' h⟩
      obtain ⟨c, hc, hn, hcp⟩ := hl.exists_child
      rcases List.mem_cons.mp ((hp c hcp).resolve_left hn) with rfl | hm
      · exact hcp
      · exact absurd hm (not_mem_path_of_checkAll hu' h c hc)
    | exhausted hu' hb hc =>
      refine ⟨.inr ⟨hb, hc⟩, ih hu' (fun c hcp => ?_) h⟩
      rcases hp c hcp with hm | hm
      · exact .inl hm
      · rcases List.mem_cons.mp hm with rfl | hm
        · exact absurd (.parent hcp) hb
        · exact .inr hm
    | cycle => cases h

theorem exists_toList_eq {s : NameSet} (h : "" ∈ s) : ∃ l, s.toList = "" :: l := by
  obtain ⟨l, hl⟩ := s
  cases l with
  | nil => exact absurd h List.not_mem_nil
  | cons n l =>
    rcases List.mem_cons.mp h with rfl | h
    · exact ⟨l, rfl⟩
    · have hlt := (List.pairwise_cons.mp hl).1 "" h
      rw [String.lt_iff] at hlt
      exact absurd hlt (List.not_lt_nil _)

/-- The empty name comes first among the parents, so that the walk ends there at once. -/
theorem visit_of_empty_mem (hp : "" ∈ g.parents a) (hf : a ∉ finished) (ha : a ∉ path) :
    g.visit "" path finished a = .found finished (a :: path) := by
  have hg : a ∈ g.names := (Ancestor.parent hp).mem_names
  obtain ⟨l, hl⟩ := exists_toList_eq hp
  rw [visit, if_neg hf, dif_neg ha, dif_pos hg, hl, visitAll, if_pos rfl]

theorem checkAll_eq_ok
    (hg : ∀ a, "" ∈ g.parents a ∨ ¬ Ancestor g a "" ∧ ¬ Ancestor g a a)
    (hs : Settled g "" path finished) (hp : ∀ x ∈ path, "" ∈ g.parents x)
    (ha : ∀ x ∈ path, x ∉ as) (hn : as.Nodup) : checkAll g path finished as = .ok () := by
  induction as generalizing path finished with
  | nil => rfl
  | cons a as ih =>
    have hap : a ∉ path := fun h => ha a h List.mem_cons_self
    have hp' : ∀ x ∈ path, x ∉ as := fun x hx h => ha x hx (List.mem_cons_of_mem a h)
    obtain ⟨han, hn⟩ := List.nodup_cons.mp hn
    rw [checkAll]
    rcases hg a with he | ⟨hb, hc⟩
    · have haf : a ∉ finished := fun h => hs.base_not_mem a h he
      rw [visit_of_empty_mem he haf hap]
      exact ih (hs.cons haf) (List.forall_mem_cons.mpr ⟨he, hp⟩)
        (List.forall_mem_cons.mpr ⟨han, hp'⟩) hn
    · have hends := visit_ends hs a
      -- what descends from `a` has no empty name above it, and so is off the path and all cycles
      have hd : ∀ t, Descends g a t → ¬ Ancestor g t "" := by
        rintro t (rfl | ht) h
        · exact hb h
        · exact hb (ht.trans h)
      generalize g.visit "" path finished a = o at hends ⊢
      cases hends with
      | found h => exact absurd h hb
      | exhausted hs' => exact ih hs' hp hp' hn
      | @cycle t hr ht =>
        rcases ht with ht | ht
        · exact absurd (.parent (hp t ht)) (hd t hr)
        · rcases hg t with h | h
          · exact absurd (.parent h) (hd t hr)
          · exact absurd ht h.2

/-- What the check accepts, whatever the names are. -/
theorem checkAcyclic_eq_ok_iff_forall : g.checkAcyclic = .ok () ↔
    ∀ a, "" ∈ g.parents a ∨ ¬ Ancestor g a "" ∧ ¬ Ancestor g a a := by
  constructor
  · intro h a
    by_cases ha : a ∈ g.names
    · refine of_checkAll (underway_nil g) (fun c hc => .inr ?_) h a ha
      exact (Ancestor.parent hc).mem_names
    · exact .inr ⟨fun h => ha h.mem_names, fun h => ha h.mem_names⟩
  · intro h
    refine checkAll_eq_ok h (settled_empty g "" []) ?_ ?_ g.nodup_names
    · exact fun x hx => absurd hx List.not_mem_nil
    · exact fun x hx => absurd hx List.not_mem_nil

theorem exists_of_checkAcyclic_eq_error {e : RegistryError} (h : g.checkAcyclic = .error e) :
    ∃ t, e = .cyclicTypeGraph t ∧ (Ancestor g t t ∨ Ancestor g t "") :=
  checkAll_error (underway_nil g) h

end LoadTiers.TypeGraph
