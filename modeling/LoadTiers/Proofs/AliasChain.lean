import LoadTiers.Catalog

/-! # Alias chains

A chain goes from a name to the target of its first declaration, and on from there. Following it
with a bound ends in one of three ways: at a canonical declaration, at a name without declaration,
or at an alias when the bound is used up.
-/

namespace LoadTiers

variable {ds : List Declaration} {n m c t : String} {owner : Option String} {k depth : Nat}

/-- What the first declaration of a name says. -/
def definition? (ds : List Declaration) (n : String) : Option Definition :=
  (ds.find? fun d => d.name == n).map (·.definition)

/-- `k` alias targets lead from the one name to the other. -/
inductive AliasChain (ds : List Declaration) : Nat → String → String → Prop

  | nil (n : String) : AliasChain ds 0 n n

  | cons {k : Nat} {n t m : String} (ht : definition? ds n = some (.aliasOf t))
      (h : AliasChain ds k t m) : AliasChain ds (k + 1) n m

theorem get?_keepFirst {seen : Declarations} :
    (ds.foldl (fun seen d => if seen.contains d.name then seen else seen.insert d) seen).get? n =
      (seen.get? n).or (ds.find? fun d => d.name == n) := by
  induction ds generalizing seen with
  | nil => simp
  | cons d ds ih =>
    rw [List.foldl_cons, ih, List.find?_cons]
    by_cases hn : d.name = n
    · subst hn
      cases hs : seen.get? d.name with
      | none => simp [Roster.contains, hs, Roster.get?_insert]
      | some d' => simp [Roster.contains, hs]
    · have hb : (d.name == n) = false := by simpa using hn
      rw [hb]
      split
      · rfl
      · rw [Roster.get?_insert, if_neg (Ne.symm hn)]

theorem Declarations.get?_ofList :
    (Declarations.ofList ds).get? n = ds.find? fun d => d.name == n := by
  rw [Declarations.ofList, get?_keepFirst]
  rfl

theorem Declarations.mem_ofList {d : Declaration} :
    d ∈ (Declarations.ofList ds).toList ↔ ds.find? (fun d' => d'.name == d.name) = some d := by
  rw [← Declarations.get?_ofList, Roster.get?_eq_some_iff, and_iff_left rfl]

theorem Declarations.mem_names_ofList :
    n ∈ (Declarations.ofList ds).names ↔ ∃ d ∈ ds, d.name = n := by
  rw [← Roster.contains_iff, Roster.contains, Declarations.get?_ofList]
  simp

theorem follow_eq (ds : List Declaration) (depth : Nat) (n : String) :
    (Declarations.ofList ds).follow depth n =
      match definition? ds n, depth with
      | none, _ => .missing n
      | some (.canonical owner), _ => .canonical n owner
      | some (.aliasOf _), 0 => .unbounded
      | some (.aliasOf t), depth + 1 => (Declarations.ofList ds).follow depth t := by
  rw [Declarations.follow, Declarations.get?_ofList, definition?]
  cases ds.find? fun d => d.name == n with
  | none => rfl
  | some d => cases hd : d.definition <;> cases depth <;> simp [hd]

inductive ChainEnds (ds : List Declaration) (depth : Nat) (n : String) : ChainEnd → Prop where

  | canonical {k : Nat} {c : String} {owner : Option String} (hk : k ≤ depth)
      (h : AliasChain ds k n c) (hc : definition? ds c = some (.canonical owner)) :
      ChainEnds ds depth n (.canonical c owner)

  | missing {k : Nat} {m : String} (hk : k ≤ depth) (h : AliasChain ds k n m)
      (hm : definition? ds m = none) : ChainEnds ds depth n (.missing m)

  | unbounded {m : String} (h : AliasChain ds (depth + 1) n m) : ChainEnds ds depth n .unbounded

theorem ChainEnds.cons {e : ChainEnd} (ht : definition? ds n = some (.aliasOf t))
    (h : ChainEnds ds depth t e) : ChainEnds ds (depth + 1) n e := by
  cases h with
  | canonical hk h hc => exact .canonical (Nat.succ_le_succ hk) (.cons ht h) hc
  | missing hk h hm => exact .missing (Nat.succ_le_succ hk) (.cons ht h) hm
  | unbounded h => exact .unbounded (.cons ht h)

theorem chainEnds_follow (ds : List Declaration) (depth : Nat) (n : String) :
    ChainEnds ds depth n ((Declarations.ofList ds).follow depth n) := by
  induction depth generalizing n with
  | zero =>
    rw [follow_eq]
    cases hn : definition? ds n with
    | none => exact .missing (Nat.le_refl 0) (.nil n) hn
    | some x =>
      cases x with
      | canonical owner => exact .canonical (Nat.le_refl 0) (.nil n) hn
      | aliasOf t => exact .unbounded (.cons hn (.nil t))
  | succ depth ih =>
    rw [follow_eq]
    cases hn : definition? ds n with
    | none => exact .missing (Nat.zero_le _) (.nil n) hn
    | some x =>
      cases x with
      | canonical owner => exact .canonical (Nat.zero_le _) (.nil n) hn
      | aliasOf t => exact .cons hn (ih t)

/-- A chain that goes on to `m` is what a search from `n` follows to its end. -/
theorem follow_of_chain (h : AliasChain ds k n m) (depth : Nat) :
    (Declarations.ofList ds).follow (depth + k) n = (Declarations.ofList ds).follow depth m := by
  induction h with
  | nil => rfl
  | cons ht _ ih =>
    rw [follow_eq, ht]
    exact ih

theorem follow_of_long_chain (h : AliasChain ds (depth + 1) n m) :
    (Declarations.ofList ds).follow depth n = .unbounded := by
  induction depth generalizing n with
  | zero =>
    cases h with
    | cons ht _ => rw [follow_eq, ht]
  | succ depth ih =>
    cases h with
    | cons ht h =>
      rw [follow_eq, ht]
      exact ih h

theorem follow_eq_iff {e : ChainEnd} :
    (Declarations.ofList ds).follow depth n = e ↔ ChainEnds ds depth n e := by
  refine ⟨fun h => h ▸ chainEnds_follow ds depth n, fun h => ?_⟩
  cases h with
  | @canonical k c owner hk h hc =>
    obtain ⟨j, rfl⟩ := Nat.exists_eq_add_of_le' hk
    rw [follow_of_chain h, follow_eq, hc]
  | @missing k m hk h hm =>
    obtain ⟨j, rfl⟩ := Nat.exists_eq_add_of_le' hk
    rw [follow_of_chain h, follow_eq, hm]
  | unbounded h => exact follow_of_long_chain h

theorem AliasChain.eq_of_canonical {k' : Nat} {c' : String} {owner' : Option String}
    (h : AliasChain ds k n c) (h' : AliasChain ds k' n c')
    (hc : definition? ds c = some (.canonical owner))
    (hc' : definition? ds c' = some (.canonical owner')) : c = c' := by
  induction h generalizing k' with
  | nil n =>
    cases h' with
    | nil => rfl
    | cons ht _ => cases hc.symm.trans ht
  | cons ht _ ih =>
    cases h' with
    | nil => cases hc'.symm.trans ht
    | cons ht' h' =>
      cases ht.symm.trans ht'
      exact ih h' hc

theorem AliasChain.exists_definition? (h : AliasChain ds k n c)
    (hc : definition? ds c = some (.canonical owner)) : ∃ x, definition? ds n = some x := by
  cases h with
  | nil => exact ⟨_, hc⟩
  | cons ht _ => exact ⟨_, ht⟩

theorem exists_mem_of_definition? {x : Definition} (h : definition? ds n = some x) :
    ∃ d ∈ ds, d.name = n := by
  obtain ⟨d, hd, -⟩ := Option.map_eq_some_iff.mp h
  exact ⟨d, List.mem_of_find?_eq_some hd, by simpa using List.find?_some hd⟩

end LoadTiers
