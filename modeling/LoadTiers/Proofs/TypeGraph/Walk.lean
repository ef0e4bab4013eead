import LoadTiers.TypeGraph.Walk

/-! # Invariant of the walk

Between two visits the finished types are off the path, closed under parents, and none of them has
the base as a parent. A visit from such a state finds the base exactly if it is an ancestor, else it
finishes the type with all of its ancestors, or it reports a type on a cycle or on the path.
-/

namespace LoadTiers.TypeGraph

variable {g : TypeGraph} {base a b p : String} {path : List String} {finished : NameSet}

theorem parents_of_not_mem_names (h : a ∉ g.names) : g.parents a = ∅ :=
  parents_eq_empty (by simpa [Roster.contains] using mt Roster.contains_iff.mp h)

theorem ancestor_iff : Ancestor g a b ↔ ∃ p ∈ g.parents a, Descends g p b := by
  constructor
  · intro h
    cases h with
    | parent h => exact ⟨b, h, .inl rfl⟩
    | step h hb => exact ⟨_, h, .inr hb⟩
  · rintro ⟨p, h, rfl | hb⟩
    · exact .parent h
    · exact .step h hb

theorem Ancestor.exists_child (h : Ancestor g a b) : ∃ c, Descends g a c ∧ b ∈ g.parents c := by
  induction h with
  | parent h => exact ⟨_, .inl rfl, h⟩
  | @step a p b h _ ih =>
    obtain ⟨c, rfl | hc, hb⟩ := ih
    · exact ⟨p, .inr (.parent h), hb⟩
    · exact ⟨c, .inr (.step h hc), hb⟩

/-- What holds of the path and the finished types between two visits. -/
structure Settled (g : TypeGraph) (base : String) (path : List String) (finished : NameSet) :
    Prop where
  not_mem_path : ∀ a ∈ finished, a ∉ path
  parents_mem : ∀ a ∈ finished, ∀ p ∈ g.parents a, p ∈ finished
  base_not_mem : ∀ a ∈ finished, base ∉ g.parents a

theorem settled_empty (g : TypeGraph) (base : String) (path : List String) :
    Settled g base path ∅ := by
  constructor <;> exact fun a ha => absurd ha NameSet.not_mem_empty

namespace Settled

theorem mem_of_ancestor (hs : Settled g base path finished) (h : Ancestor g a b)
    (ha : a ∈ finished) : b ∈ finished := by
  induction h with
  | parent h => exact hs.parents_mem _ ha _ h
  | step h _ ih => exact ih (hs.parents_mem _ ha _ h)

theorem mem_of_descends (hs : Settled g base path finished) (ha : a ∈ finished)
    (h : Descends g a b) : b ∈ finished := by
  rcases h with rfl | h
  · exact ha
  · exact hs.mem_of_ancestor h ha

theorem not_ancestor_base (hs : Settled g base path finished) (ha : a ∈ finished) :
    ¬ Ancestor g a base := by
  intro h
  obtain ⟨c, hc, hb⟩ := h.exists_child
  exact hs.base_not_mem c (hs.mem_of_descends ha hc) hb

theorem cons (hs : Settled g base path finished) (ha : a ∉ finished) :
    Settled g base (a :: path) finished := by
  refine ⟨fun x hx => ?_, hs.parents_mem, hs.base_not_mem⟩
  rw [List.mem_cons, not_or]
  exact ⟨fun he => ha (he ▸ hx), hs.not_mem_path x hx⟩

theorem insert (hs : Settled g base path finished) (hp : a ∉ path)
    (hm : ∀ p ∈ g.parents a, p ∈ finished) (hb : base ∉ g.parents a) :
    Settled g base path (finished.insert a) := by
  refine ⟨fun x hx => ?_, fun x hx p hxp => NameSet.mem_insert.mpr (.inr ?_), fun x hx => ?_⟩ <;>
    rcases NameSet.mem_insert.mp hx with rfl | hx
  · exact hp
  · exact hs.not_mem_path x hx
  · exact hm p hxp
  · exact hs.parents_mem x hx p hxp
  · exact hb
  · exact hs.base_not_mem x hx

end Settled

/-- How a walk may end that goes through the types of `reached`, and for which `hasBase` tells
whether the base is to be found. -/
inductive Ends (g : TypeGraph) (base : String) (path : List String) (finished : NameSet)
    (reached : String → Prop) (hasBase : Prop) : Outcome → Prop where

  | found {fs : NameSet} {ps : List String} (hb : hasBase) :
      Ends g base path finished reached hasBase (.found fs ps)

  | exhausted {fs : NameSet} (hs : Settled g base path fs)
      (hm : ∀ x, x ∈ fs ↔ x ∈ finished ∨ reached x) (hb : ¬ hasBase)
      (hc : (∀ x ∈ finished, ¬ Ancestor g x x) → ∀ x ∈ fs, ¬ Ancestor g x x) :
      Ends g base path finished reached hasBase (.exhausted fs)

  | cycle {t : String} (hr : reached t) (ht : t ∈ path ∨ Ancestor g t t) :
      Ends g base path finished reached hasBase (.cycle t)

theorem Ends.of_finished (hs : Settled g base path finished) (ha : a ∈ finished) :
    Ends g base path finished (Descends g a) (Ancestor g a base) (.exhausted finished) := by
  refine .exhausted hs (fun x => ⟨.inl, ?_⟩) (hs.not_ancestor_base ha) id
  rintro (hx | hx)
  · exact hx
  · exact hs.mem_of_descends ha hx

theorem Ends.finish {fs : NameSet} (ha : a ∉ path)
    (h : Ends g base (a :: path) finished (fun x => ∃ p ∈ g.parents a, Descends g p x)
      (∃ p ∈ g.parents a, Descends g p base) (.exhausted fs)) :
    Ends g base path finished (Descends g a) (Ancestor g a base) (.exhausted (fs.insert a)) := by
  cases h with | exhausted hs hm hb hc =>
  simp only [← ancestor_iff] at hm hb
  have hs' : Settled g base path fs :=
    ⟨fun x hx hp => hs.not_mem_path x hx (List.mem_cons_of_mem a hp), hs.parents_mem,
      hs.base_not_mem⟩
  have haf : a ∉ fs := fun h => hs.not_mem_path a h List.mem_cons_self
  refine .exhausted (hs'.insert ha (fun p hp => (hm p).mpr (.inr (.parent hp)))
    fun h => hb (.parent h)) (fun x => ?_) hb fun hf x hx => ?_
  · rw [NameSet.mem_insert, hm]
    constructor
    · rintro (rfl | hx | hx)
      · exact .inr (.inl rfl)
      · exact .inl hx
      · exact .inr (.inr hx)
    · rintro (hx | rfl | hx)
      · exact .inr (.inl hx)
      · exact .inl rfl
      · exact .inr (.inr hx)
  · rcases NameSet.mem_insert.mp hx with rfl | hx
    · -- an ancestor of itself would be finished while it is on the path
      exact fun h => haf ((hm x).mpr (.inr h))
    · exact hc hf x hx

theorem Ends.of_undeclared (hs : Settled g base path finished) (ha : a ∉ path)
    (hf : a ∉ finished) (hg : g.parents a = ∅) :
    Ends g base path finished (Descends g a) (Ancestor g a base)
      (.exhausted (finished.insert a)) := by
  have hn : ∀ p, p ∉ g.parents a := fun p hp => by
    rw [hg] at hp
    exact List.not_mem_nil hp
  refine .finish ha (.exhausted (hs.cons hf) (fun x => ⟨.inl, ?_⟩) ?_ id)
  · rintro (hx | ⟨p, hp, -⟩)
    · exact hx
    · exact absurd hp (hn p)
  · rintro ⟨p, hp, -⟩
    exact hn p hp

theorem Ends.cons {ps : List String} {fs : NameSet} {o : Outcome} (hp : p ≠ base)
    (h : Ends g base path finished (Descends g p) (Ancestor g p base) (.exhausted fs))
    (ho : Settled g base path fs → Ends g base path fs (fun x => ∃ q ∈ ps, Descends g q x)
      (∃ q ∈ ps, Descends g q base) o) :
    Ends g base path finished (fun x => ∃ q ∈ p :: ps, Descends g q x)
      (∃ q ∈ p :: ps, Descends g q base) o := by
  cases h with | exhausted hs hm hb hc =>
  have hb' : ¬ Descends g p base := by
    rintro (h | h)
    · exact hp h
    · exact hb h
  cases ho hs with
  | found hb => exact .found (by simp [hb])
  | exhausted hs hm' hb hc' =>
    refine .exhausted hs (fun x => ?_) (by simpa [hb'] using hb) (fun hf => hc' (hc hf))
    rw [hm', hm]
    simp [or_assoc]
  | cycle hr ht => exact .cycle (by simp [hr]) ht

/-- A walk that was cut short is cut short for the walk around it too. -/
theorem Ends.of_cut {path' : List String} {finished' : NameSet} {reached reached' : String → Prop}
    {hasBase hasBase' : Prop} {o : Outcome} (ho : ∀ fs, o = .exhausted fs → False)
    (h : Ends g base path' finished' reached' hasBase' o) (hb : hasBase' → hasBase)
    (hr : ∀ x, reached' x → reached x)
    (hp : ∀ x ∈ path', reached' x → x ∈ path ∨ Ancestor g x x) :
    Ends g base path finished reached hasBase o := by
  cases h with
  | found h => exact .found (hb h)
  | exhausted => exact (ho _ rfl).elim
  | @cycle t h ht =>
    refine .cycle (hr t h) ?_
    rcases ht with ht | ht
    · exact hp t ht h
    · exact .inr ht

theorem visit_visitAll_ends (g : TypeGraph) (base : String) :
    (∀ path finished a, Settled g base path finished →
      Ends g base path finished (Descends g a) (Ancestor g a base)
        (g.visit base path finished a)) ∧
    ∀ path finished ps, Settled g base path finished →
      Ends g base path finished (fun x => ∃ p ∈ ps, Descends g p x)
        (∃ p ∈ ps, Descends g p base) (g.visitAll base path finished ps) := by
  refine visit.mutual_induct g base
    (fun path finished a => Settled g base path finished →
      Ends g base path finished (Descends g a) (Ancestor g a base)
        (g.visit base path finished a))
    (fun path finished ps => Settled g base path finished →
      Ends g base path finished (fun x => ∃ p ∈ ps, Descends g p x)
        (∃ p ∈ ps, Descends g p base) (g.visitAll base path finished ps))
    ?finished ?onPath ?declared ?declaredCut ?undeclared ?nil ?base ?cons ?consCut
  case finished =>
    intro path finished a ha hs
    rw [visit, if_pos ha]
    exact .of_finished hs ha
  case onPath =>
    intro path finished a hf ha hs
    rw [visit, if_neg hf, dif_pos ha]
    exact .cycle (.inl rfl) (.inl ha)
  case declared =>
    intro path finished a hf ha hg fs ho ih hs
    rw [visit, if_neg hf, dif_neg ha, dif_pos hg, ho]
    exact .finish ha (ho ▸ ih (hs.cons hf))
  case declaredCut =>
    intro path finished a hf ha hg ho ih hs
    rw [visit, if_neg hf, dif_neg ha, dif_pos hg]
    have h := ih (hs.cons hf)
    simp only [← NameSet.mem_def, ← ancestor_iff] at h
    split
    · exact (ho _ ‹_›).elim
    · refine h.of_cut ho id (fun x => .inr) fun x hx hax => ?_
      rcases List.mem_cons.mp hx with rfl | hx
      · exact .inr hax
      · exact .inl hx
  case undeclared =>
    intro path finished a hf ha hg hs
    rw [visit, if_neg hf, dif_neg ha, dif_neg hg]
    exact .of_undeclared hs ha hf (parents_of_not_mem_names hg)
  case nil =>
    intro path finished hs
    rw [visitAll]
    exact .exhausted hs (by simp) (by simp) id
  case base =>
    intro path finished ps hs
    rw [visitAll, if_pos rfl]
    exact .found ⟨base, by simp, .inl rfl⟩
  case cons =>
    intro path finished p ps hp fs ho ih ih' hs
    rw [visitAll, if_neg hp, ho]
    exact .cons hp (ho ▸ ih hs) ih'
  case consCut =>
    intro path finished p ps hp ho ih hs
    rw [visitAll, if_neg hp]
    split
    · exact (ho _ ‹_›).elim
    · exact (ih hs).of_cut ho (fun h => ⟨p, by simp, .inr h⟩) (fun x h => ⟨p, by simp, h⟩)
        fun x hx _ => .inl hx

theorem visit_ends (hs : Settled g base path finished) (a : String) :
    Ends g base path finished (Descends g a) (Ancestor g a base)
      (g.visit base path finished a) :=
  (visit_visitAll_ends g base).1 path finished a hs

theorem visitAll_ends (hs : Settled g base path finished) (ps : List String) :
    Ends g base path finished (fun x => ∃ p ∈ ps, Descends g p x)
      (∃ p ∈ ps, Descends g p base) (g.visitAll base path finished ps) :=
  (visit_visitAll_ends g base).2 path finished ps hs

end LoadTiers.TypeGraph
