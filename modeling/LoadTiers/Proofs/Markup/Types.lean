import LoadTiers.Registry.Markup
import LoadTiers.Proofs.TypeGraph.Acyclic

/-! # Types in a document

The parents that type elements list, and the graph that is read from them: its parents are those
that some declaration of the type lists. An empty name is never a parent.
-/

namespace LoadTiers.Registry

open Text Xml

variable {n : Node} {types : List Node} {a b : String}

/-- The element lists the name as a parent: among the items of its `parent` attribute, or as the
type that it is an alias of. -/
inductive Lists (n : Node) (b : String) : Prop

  | parent {raw item : String} (ha : n.attribute? "parent" = some raw)
      (hi : item ∈ splitOn ',' raw) (hb : trim item = b) (hne : b ≠ "")

  | target {raw : String} (ha : n.attribute? "alias" = some raw) (hb : trim raw = b)
      (hne : b ≠ "")

/-- Some declaration of the type `a` lists `b` as a parent. -/
def ListsParent (types : List Node) (a b : String) : Prop :=
  ∃ n ∈ types, typeName? n = some a ∧ Lists n b

theorem filled?_eq_some_iff {name value : String} : filled? n name = some value ↔
    ∃ raw, n.attribute? name = some raw ∧ trim raw = value ∧ value ≠ "" := by
  simp only [filled?, Option.filter_eq_some_iff, Option.map_eq_some_iff, decide_eq_true_eq]
  exact ⟨fun ⟨⟨raw, h, hv⟩, hne⟩ => ⟨raw, h, hv, hne⟩, fun ⟨raw, h, hv, hne⟩ => ⟨⟨raw, h, hv⟩, hne⟩⟩

theorem mem_commaList {raw : String} :
    b ∈ commaList raw ↔ ∃ item ∈ splitOn ',' raw, trim item = b ∧ b ≠ "" := by
  rw [commaList, NameSet.mem_ofList]
  simp only [List.mem_filter, List.mem_map, decide_eq_true_eq]
  exact ⟨fun ⟨⟨item, hi, hb⟩, hne⟩ => ⟨item, hi, hb, hne⟩,
    fun ⟨item, hi, hb, hne⟩ => ⟨⟨item, hi, hb⟩, hne⟩⟩

theorem mem_listed : b ∈ (n.attribute? "parent").elim ∅ commaList ↔
    ∃ raw, n.attribute? "parent" = some raw ∧ b ∈ commaList raw := by
  cases n.attribute? "parent" with
  | none => simp
  | some raw => simp

theorem mem_typeParents : b ∈ typeParents n ↔ Lists n b := by
  have hl : Lists n b ↔
      b ∈ (n.attribute? "parent").elim ∅ commaList ∨ filled? n "alias" = some b := by
    rw [mem_listed, filled?_eq_some_iff]
    simp only [mem_commaList]
    constructor
    · rintro (⟨ha, hi, hb, hne⟩ | ⟨ha, hb, hne⟩)
      · exact .inl ⟨_, ha, _, hi, hb, hne⟩
      · exact .inr ⟨_, ha, hb, hne⟩
    · rintro (⟨_, ha, _, hi, hb, hne⟩ | ⟨_, ha, hb, hne⟩)
      · exact .parent ha hi hb hne
      · exact .target ha hb hne
  rw [hl, typeParents]
  cases filled? n "alias" with
  | none => simp
  | some t => simp [NameSet.mem_insert, eq_comm, or_comm]

theorem Lists.ne_empty (h : Lists n b) : b ≠ "" := by
  cases h with
  | parent _ _ _ hne => exact hne
  | target _ _ hne => exact hne

theorem mem_parents_foldl (g : TypeGraph) :
    b ∈ (types.foldl (fun g n => match typeName? n with
      | some name => g.declare name (typeParents n)
      | none => g) g).parents a ↔ b ∈ g.parents a ∨ ListsParent types a b := by
  induction types generalizing g with
  | nil => simp [ListsParent]
  | cons n types ih =>
    rw [List.foldl_cons, ih]
    simp only [ListsParent, List.mem_cons, or_and_right, exists_or, exists_eq_left, ← or_assoc]
    refine or_congr_left ?_
    cases hn : typeName? n with
    | none => simp
    | some name =>
      simp only [TypeGraph.parents_declare, Option.some.injEq]
      by_cases ha : a = name
      · subst ha
        simp [NameSet.mem_union, mem_typeParents]
      · simp [ha, Ne.symm ha]

theorem mem_parents_typeGraph : b ∈ (typeGraph types).parents a ↔ ListsParent types a b :=
  (mem_parents_foldl ∅).trans (or_iff_right NameSet.not_mem_empty)

theorem namesParents_typeGraph (types : List Node) : (typeGraph types).NamesParents := by
  intro a h
  obtain ⟨n, -, -, hl⟩ := mem_parents_typeGraph.mp h
  exact hl.ne_empty rfl

end LoadTiers.Registry
