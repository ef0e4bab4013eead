import LoadTiers.Proofs.TypeGraph.Walk
import Mathlib.Data.List.Basic

/-! # Walks that change a state

A walk with two sets of types that it changes as it goes, the finished ones and those on its path.
It answers like a walk that hands its path on, and it leaves the path as it was unless it is cut
short. The number of types that are in neither set bounds how deep it calls itself.
-/

namespace LoadTiers.TypeGraph

structure WalkState where
  finished : NameSet
  onPath : NameSet

namespace WalkState

def enter (s : WalkState) (a : String) : WalkState := { s with onPath := s.onPath.insert a }

@[simp] theorem finished_enter (s : WalkState) (a : String) : (s.enter a).finished = s.finished :=
  rfl

/-- A type is taken off the path, and is finished. -/
def leave (s : WalkState) (a : String) : WalkState :=
  ⟨s.finished.insert a, s.onPath.filter (· ≠ a)⟩

end WalkState

/-- What a walk answers and the state that it leaves, unless it may not go deep enough. -/
abbrev WalkResult := Option (Except RegistryError Bool × WalkState)

/-- Walks from each of the parents in turn, up to the first that ends the walk. -/
def walkAll (base : String) (walk : WalkState → String → WalkResult) :
    WalkState → List String → WalkResult
  | s, [] => some (.ok false, s)
  | s, p :: ps =>
    if p = base then some (.ok true, s)
    else match walk s p with
      | some (.ok false, s) => walkAll base walk s ps
      | stopped => stopped

/-- Walks from a type, and calls itself at most `depth` deep. -/
def walk (g : TypeGraph) (base : String) : Nat → WalkState → String → WalkResult
  | 0, _, _ => none
  | depth + 1, s, a =>
    if a ∈ s.finished then some (.ok false, s)
    else if a ∈ s.onPath then some (.error (.cyclicTypeGraph a), s)
    else
      match walkAll base (g.walk base depth) (s.enter a) (g.parents a).toList with
      | some (.ok false, s) => some (.ok false, s.leave a)
      | stopped => stopped

def mentioned (g : TypeGraph) : NameSet :=
  .ofList (g.names ++ g.toList.flatMap fun node => node.parents.toList)

/-- How many types are neither finished nor on the path. -/
def unvisited (g : TypeGraph) (s : WalkState) : Nat :=
  (g.mentioned.filter fun n => n ∉ s.finished ∧ n ∉ s.onPath).size

variable {g : TypeGraph} {base a p : String} {path ps : List String} {s t : WalkState}
  {depth : Nat}

namespace WalkState

/-- The finished types are off the path and closed under parents, and none has the base as a
parent. -/
structure Settled (g : TypeGraph) (base : String) (s : WalkState) : Prop where
  disjoint : ∀ a ∈ s.finished, a ∉ s.onPath
  parents_mem : ∀ a ∈ s.finished, ∀ p ∈ g.parents a, p ∈ s.finished
  base_not_mem : ∀ a ∈ s.finished, base ∉ g.parents a

theorem settled_iff :
    s.Settled g base ↔ TypeGraph.Settled g base s.onPath.toList s.finished :=
  ⟨fun h => ⟨h.disjoint, h.parents_mem, h.base_not_mem⟩,
    fun h => ⟨h.not_mem_path, h.parents_mem, h.base_not_mem⟩⟩

def On (s : WalkState) (path : List String) : Prop := ∀ x, x ∈ s.onPath ↔ x ∈ path

theorem On.enter (h : s.On path) (a : String) : (s.enter a).On (a :: path) := fun x => by
  rw [WalkState.enter, NameSet.mem_insert, h x, List.mem_cons]

theorem leave_enter (finished : NameSet) (h : a ∉ s.onPath) :
    leave ⟨finished, (s.enter a).onPath⟩ a = ⟨finished.insert a, s.onPath⟩ := by
  have hpath : (s.onPath.insert a).filter (· ≠ a) = s.onPath := NameSet.ext fun x => by
    rw [NameSet.mem_filter, NameSet.mem_insert, decide_eq_true_eq]
    constructor
    · rintro ⟨rfl | hx, hne⟩
      · exact absurd rfl hne
      · exact hx
    · exact fun hx => ⟨.inr hx, fun he => h (he ▸ hx)⟩
  rw [leave, WalkState.enter, hpath]

end WalkState

section Unvisited

theorem mem_mentioned_of_mem_names (h : a ∈ g.names) : a ∈ g.mentioned :=
  NameSet.mem_ofList.mpr (List.mem_append_left _ h)

theorem unvisited_le {fs : NameSet} (h : ∀ x ∈ s.finished, x ∈ fs) :
    g.unvisited ⟨fs, s.onPath⟩ ≤ g.unvisited s := by
  refine (List.monotone_filter_right _ fun x hx => ?_).length_le
  simp only [decide_eq_true_eq] at hx ⊢
  exact ⟨fun hf => hx.1 (h x hf), hx.2⟩

theorem unvisited_enter_lt (hg : a ∈ g.names) (hf : a ∉ s.finished) (hp : a ∉ s.onPath) :
    g.unvisited (s.enter a) < g.unvisited s := by
  have hfilter : g.mentioned.toList.filter (fun n => n ∉ s.finished ∧ n ∉ s.onPath.insert a) =
      (g.mentioned.toList.filter fun n => n ∉ s.finished ∧ n ∉ s.onPath).filter (· ≠ a) := by
    rw [List.filter_filter]
    refine List.filter_congr fun n _ => ?_
    rw [← Bool.decide_and, decide_eq_decide, NameSet.mem_insert, not_or]
    exact and_left_comm
  have hm : a ∈ g.mentioned.toList.filter fun n => n ∉ s.finished ∧ n ∉ s.onPath :=
    List.mem_filter.mpr ⟨mem_mentioned_of_mem_names hg, by simp [hf, hp]⟩
  change (g.mentioned.toList.filter fun n => n ∉ s.finished ∧ n ∉ s.onPath.insert a).length < _
  rw [hfilter]
  exact List.length_filter_lt_length_iff_exists.mpr ⟨a, hm, by simp⟩

end Unvisited

/-- How a walk over a state ends, where the walk that hands its path on ends with an outcome. -/
inductive Outcome.Gives (onPath : NameSet) :
    Outcome → Except RegistryError Bool × WalkState → Prop

  | found {fs : NameSet} {ps : List String} {s : WalkState} (hf : s.finished = fs)
      (hp : s.On ps) : Gives onPath (.found fs ps) (.ok true, s)

  | exhausted {fs : NameSet} : Gives onPath (.exhausted fs) (.ok false, ⟨fs, onPath⟩)

  | cycle {t : String} {s : WalkState} : Gives onPath (.cycle t) (.error (.cyclicTypeGraph t), s)

/-- What a walk from a type has to answer, and the state that it has to leave. -/
def Ending (g : TypeGraph) (base : String) (path : List String) (s : WalkState) (a : String)
    (result : WalkResult) : Prop :=
  ∃ r, result = some r ∧ (g.visit base path s.finished a).Gives s.onPath r

def EndingAll (g : TypeGraph) (base : String) (path : List String) (s : WalkState)
    (ps : List String) (result : WalkResult) : Prop :=
  ∃ r, result = some r ∧ (g.visitAll base path s.finished ps).Gives s.onPath r

/-- A walk through several types ends if it may call itself for each of them. The state between two
calls has the same path and no fewer finished types. -/
theorem endingAll_walkAll {call : WalkState → String → WalkResult}
    (hcall : ∀ s p, TypeGraph.Settled g base path s.finished → s.On path →
      g.unvisited s < depth → g.Ending base path s p (call s p))
    (hs : TypeGraph.Settled g base path s.finished) (hp : s.On path)
    (hn : g.unvisited s < depth) (ps : List String) :
    g.EndingAll base path s ps (walkAll base call s ps) := by
  induction ps generalizing s with
  | nil =>
    rw [EndingAll, visitAll, walkAll]
    exact ⟨_, rfl, .exhausted⟩
  | cons p ps ih =>
    rw [EndingAll, visitAll, walkAll]
    by_cases hb : p = base
    · rw [if_pos hb, if_pos hb]
      exact ⟨_, rfl, .found rfl hp⟩
    · rw [if_neg hb, if_neg hb]
      obtain ⟨r, hr, hgives⟩ := hcall s p hs hp hn
      have hends := visit_ends hs p
      rw [hr]
      generalize g.visit base path s.finished p = o at hgives hends
      cases hgives with
      | found hf hp => exact ⟨_, rfl, .found hf hp⟩
      | @exhausted fs =>
        cases hends with | exhausted hs' hm _ _ =>
        have hle : g.unvisited ⟨fs, s.onPath⟩ ≤ g.unvisited s :=
          unvisited_le fun x hx => (hm x).mpr (.inl hx)
        exact ih (s := ⟨fs, s.onPath⟩) hs' hp (Nat.lt_of_le_of_lt hle hn)
      | cycle => exact ⟨_, rfl, .cycle⟩

theorem ending_walk (hs : TypeGraph.Settled g base path s.finished) (hp : s.On path)
    (hn : g.unvisited s < depth) (a : String) :
    g.Ending base path s a (g.walk base depth s a) := by
  induction depth generalizing path s a with
  | zero => exact absurd hn (Nat.not_lt_zero _)
  | succ depth ih =>
    rw [Ending, visit, walk]
    by_cases hf : a ∈ s.finished
    · rw [if_pos hf, if_pos hf]
      exact ⟨_, rfl, .exhausted⟩
    rw [if_neg hf, if_neg hf]
    by_cases ha : a ∈ s.onPath
    · rw [if_pos ha, dif_pos ((hp a).mp ha)]
      exact ⟨_, rfl, .cycle⟩
    rw [if_neg ha, dif_neg (mt (hp a).mpr ha)]
    by_cases hg : a ∈ g.names
    · -- the budget covers the calls from the new state, which has one type less to visit
      have hlt := unvisited_enter_lt hg hf ha
      obtain ⟨r, hr, hgives⟩ := endingAll_walkAll (s := s.enter a)
        (fun s p hs hp hn => ih hs hp hn p) (hs.cons hf) (hp.enter a)
        (Nat.lt_of_lt_of_le hlt (Nat.le_of_lt_succ hn)) (g.parents a).toList
      rw [dif_pos hg, hr]
      rw [WalkState.finished_enter] at hgives
      generalize g.visitAll base (a :: path) s.finished (g.parents a).toList = o at hgives
      cases hgives with
      | found hf hp => exact ⟨_, rfl, .found hf hp⟩
      | exhausted => exact ⟨_, rfl, by rw [WalkState.leave_enter _ ha]; exact .exhausted⟩
      | cycle => exact ⟨_, rfl, .cycle⟩
    · -- a type that is not declared has no parents to walk from
      have hparents : (g.parents a).toList = [] := by
        rw [parents_of_not_mem_names hg]
        rfl
      rw [dif_neg hg, hparents, walkAll]
      exact ⟨_, rfl, by rw [WalkState.leave_enter _ ha]; exact .exhausted⟩

/-- A walk from `a` calls itself for its parent `p` in the state `t`: it has walked from the parents
before `p`, and none has ended it. -/
structure Calls (g : TypeGraph) (base : String) (depth : Nat) (s : WalkState) (a : String)
    (t : WalkState) (p : String) : Prop where
  not_finished : a ∉ s.finished
  not_onPath : a ∉ s.onPath
  ne_base : p ≠ base
  reached : ∃ before after, (g.parents a).toList = before ++ p :: after ∧
    walkAll base (g.walk base depth) (s.enter a) before = some (.ok false, t)

/-- The calls of a walk start from a state that is settled too, with fewer types to visit. -/
theorem Calls.settled (h : g.Calls base depth s a t p) (hs : s.Settled g base)
    (hn : g.unvisited s ≤ depth) : t.Settled g base ∧ g.unvisited t < g.unvisited s := by
  obtain ⟨hf, ha, -, before, after, hparents, hreached⟩ := h
  have hp : p ∈ g.parents a := by
    rw [NameSet.mem_def, hparents]
    simp
  have hg : a ∈ g.names := by
    by_contra hg
    rw [parents_of_not_mem_names hg] at hp
    exact NameSet.not_mem_empty hp
  have hlt := unvisited_enter_lt hg hf ha
  have hs' := (WalkState.settled_iff.mp hs).cons hf
  have hon : (s.enter a).On (a :: s.onPath.toList) := .enter (fun _ => Iff.rfl) a
  obtain ⟨r, hr, hgives⟩ := endingAll_walkAll (s := s.enter a)
    (fun s p hs hp hn => ending_walk hs hp hn p) hs' hon (Nat.lt_of_lt_of_le hlt hn) before
  obtain rfl := Option.some.inj (hr.symm.trans hreached)
  have hends := visitAll_ends hs' before
  rw [WalkState.finished_enter] at hgives
  generalize g.visitAll base (a :: s.onPath.toList) s.finished before = o at hgives hends
  cases hgives with | @exhausted fs =>
  cases hends with | exhausted hs' hm _ _ =>
  have hle : g.unvisited ⟨fs, (s.enter a).onPath⟩ ≤ g.unvisited (s.enter a) :=
    unvisited_le fun x hx => (hm x).mpr (.inl hx)
  refine ⟨⟨fun x hx hpath => ?_, hs'.parents_mem, hs'.base_not_mem⟩, Nat.lt_of_le_of_lt hle hlt⟩
  exact hs'.not_mem_path x hx ((hon x).mp hpath)

/-- A walk from a settled state ends, with no more calls in each other than there are types to
visit, and each call has fewer of them. It answers like the visit. If it does not find the base,
then it leaves the path as it was and a settled state in which the type and its ancestors are
finished. -/
theorem walk_settled (g : TypeGraph) (base : String) (s : WalkState) (a : String) (depth : Nat)
    (hs : s.Settled g base) (hn : g.unvisited s ≤ depth) :
    (∀ t p, g.Calls base depth s a t p → t.Settled g base ∧ g.unvisited t < g.unvisited s) ∧
    ∃ answer t, g.walk base (depth + 1) s a = some (answer, t) ∧
      (g.visit base s.onPath.toList s.finished a).Gives s.onPath (answer, t) ∧
      (answer = .ok false → t.onPath = s.onPath ∧
        (∀ x, x ∈ t.finished ↔ x ∈ s.finished ∨ x = a ∨ Ancestor g a x) ∧
        t.Settled g base ∧ ¬ Ancestor g a base) ∧
      (answer = .ok true → Ancestor g a base) ∧
      ∀ e, answer = .error e → ∃ x, e = .cyclicTypeGraph x ∧
        (x = a ∨ Ancestor g a x) ∧ (x ∈ s.onPath ∨ Ancestor g x x) := by
  refine ⟨fun t p h => h.settled hs hn, ?_⟩
  have hs' := WalkState.settled_iff.mp hs
  obtain ⟨⟨answer, t⟩, hr, hgives⟩ := ending_walk hs' (fun _ => Iff.rfl) (Nat.lt_succ_of_le hn) a
  have hends := visit_ends hs' a
  refine ⟨answer, t, hr, hgives, ?_⟩
  generalize g.visit base s.onPath.toList s.finished a = o at hgives hends
  cases hgives with
  | found hf hp =>
    cases hends with | found hb =>
    exact ⟨nofun, fun _ => hb, nofun⟩
  | exhausted =>
    cases hends with | exhausted hs' hm hb _ =>
    refine ⟨fun _ => ⟨rfl, fun x => ?_, WalkState.settled_iff.mpr hs', hb⟩, nofun, nofun⟩
    rw [hm, Descends, eq_comm]
  | @cycle x t =>
    cases hends with | cycle hr ht =>
    refine ⟨nofun, nofun, fun e he => ⟨x, (Except.error.inj he).symm, ?_, ht⟩⟩
    exact hr.imp_left Eq.symm

def poolTypes : TypeGraph := .ofList
  [⟨"VkCommandBuffer", .ofList ["VkCommandPool"]⟩,
    ⟨"VkCommandPool", .ofList ["VkDevice", "VkInstance"]⟩, ⟨"VkQueue", .ofList ["VkDevice"]⟩]

/-- A walk from a command buffer has come to its pool, and devices are finished. -/
def poolState : WalkState := ⟨.ofList ["VkDevice"], .ofList ["VkCommandBuffer"]⟩

/-- The walk goes on from the pool without meeting a queue, and then the pool is finished. -/
theorem walk_poolState :
    poolState.Settled poolTypes "VkQueue" ∧ poolTypes.unvisited poolState = 3 ∧
    poolTypes.Calls "VkQueue" 3 poolState "VkCommandPool" (poolState.enter "VkCommandPool")
      "VkDevice" ∧
    (poolState.enter "VkCommandPool").Settled poolTypes "VkQueue" ∧
    ∃ t, poolTypes.walk "VkQueue" 4 poolState "VkCommandPool" = some (.ok false, t) ∧
      t.onPath = poolState.onPath ∧ "VkInstance" ∈ t.finished ∧
      ¬ Ancestor poolTypes "VkCommandPool" "VkQueue" := by
  have hs : poolState.Settled poolTypes "VkQueue" := by
    constructor <;> decide +kernel
  have hn : poolTypes.unvisited poolState = 3 := by decide +kernel
  have hcalls : poolTypes.Calls "VkQueue" 3 poolState "VkCommandPool"
      (poolState.enter "VkCommandPool") "VkDevice" :=
    ⟨by decide +kernel, by decide +kernel, by decide, [], ["VkInstance"], by decide +kernel, rfl⟩
  obtain ⟨hcall, answer, t, hwalk, -, hfalse, -⟩ :=
    walk_settled poolTypes "VkQueue" poolState "VkCommandPool" 3 hs (Nat.le_of_eq hn)
  have hanswer : (poolTypes.walk "VkQueue" 4 poolState "VkCommandPool").map Prod.fst =
      some (.ok false) := by
    decide +kernel
  rw [hwalk, Option.map_some, Option.some.injEq] at hanswer
  obtain rfl : answer = .ok false := hanswer
  obtain ⟨hpath, hfinished, -, hbase⟩ := hfalse rfl
  have hparent : Ancestor poolTypes "VkCommandPool" "VkInstance" := .parent (by decide +kernel)
  exact ⟨hs, hn, hcalls, (hcall _ _ hcalls).1, t, hwalk, hpath,
    (hfinished _).mpr (.inr (.inr hparent)), hbase⟩

end LoadTiers.TypeGraph
