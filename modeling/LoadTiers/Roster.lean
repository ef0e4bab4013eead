/-! # Rosters

A roster holds items in the order of their names, one for each name. Names are ordered by code
points. Main statements: what an insertion does to lookups, and that lookups determine the roster.
-/

namespace LoadTiers

variable {α β : Type}

/-- Puts an item in its place, where it replaces an item of the same name. -/
def place (name : α → String) (x : α) : List α → List α
  | [] => [x]
  | y :: ys =>
    if name x < name y then x :: y :: ys
    else if name x = name y then x :: ys
    else y :: place name x ys

theorem mem_of_mem_place {name : α → String} {x y : α} {l : List α} (h : y ∈ place name x l) :
    y = x ∨ y ∈ l := by
  induction l with
  | nil => simpa [place] using h
  | cons z zs ih => grind [place]

theorem pairwise_place {name : α → String} (x : α) {l : List α}
    (h : l.Pairwise fun a b => name a < name b) :
    (place name x l).Pairwise fun a b => name a < name b := by
  induction l with
  | nil => simp [place]
  | cons y ys ih =>
    rw [List.pairwise_cons] at h
    unfold place
    split
    · next hlt =>
      refine List.pairwise_cons.2 ⟨fun z hz => ?_, List.pairwise_cons.2 h⟩
      rcases List.mem_cons.1 hz with rfl | hz
      · exact hlt
      · exact String.lt_trans hlt (h.1 z hz)
    · split
      · next he => exact List.pairwise_cons.2 ⟨fun z hz => he ▸ h.1 z hz, h.2⟩
      · next hlt hne =>
        refine List.pairwise_cons.2 ⟨fun z hz => ?_, ih h.2⟩
        rcases mem_of_mem_place hz with rfl | hz
        · rcases Std.lt_trichotomy (name y) (name z) with h | h | h
          · exact h
          · exact absurd h.symm hne
          · exact absurd h hlt
        · exact h.1 z hz

structure Roster (name : α → String) where
  toList : List α
  sorted : toList.Pairwise fun a b => name a < name b

namespace Roster

variable {name : α → String}

theorem toList_injective {r s : Roster name} (h : r.toList = s.toList) : r = s := by
  cases r; cases s; cases h; rfl

instance [DecidableEq α] : DecidableEq (Roster name) := fun r s =>
  decidable_of_iff (r.toList = s.toList) ⟨toList_injective, fun h => h ▸ rfl⟩

def empty : Roster name := ⟨[], .nil⟩

instance : EmptyCollection (Roster name) := ⟨empty⟩
instance : Inhabited (Roster name) := ⟨empty⟩

/-- Adds an item in place of the one of that name. -/
def insert (r : Roster name) (x : α) : Roster name :=
  ⟨place name x r.toList, pairwise_place x r.sorted⟩

/-- The roster of a list, in which a later item replaces an earlier one of its name. -/
def ofList (l : List α) : Roster name := l.foldl insert empty

def get? (r : Roster name) (n : String) : Option α := r.toList.find? fun x => name x == n

def contains (r : Roster name) (n : String) : Bool := (r.get? n).isSome

def names (r : Roster name) : List String := r.toList.map name

def size (r : Roster name) : Nat := r.toList.length

def isEmpty (r : Roster name) : Bool := r.toList.isEmpty

def filter (p : α → Bool) (r : Roster name) : Roster name :=
  ⟨r.toList.filter p, r.sorted.filter p⟩

theorem get?_eq_some_iff {r : Roster name} {n : String} {x : α} :
    r.get? n = some x ↔ x ∈ r.toList ∧ name x = n := by
  constructor
  · intro h
    exact ⟨List.mem_of_find?_eq_some h, by simpa using List.find?_some h⟩
  · rintro ⟨hx, rfl⟩
    obtain ⟨l, hl⟩ := r
    simp only [get?] at *
    induction l with
    | nil => cases hx
    | cons y ys ih =>
      rw [List.pairwise_cons] at hl
      rcases List.mem_cons.1 hx with rfl | hx
      · simp
      · have := hl.1 x hx
        rw [List.find?_cons_of_neg, ih hl.2 hx]
        intro he
        rw [beq_iff_eq.1 he] at this
        exact String.lt_irrefl _ this

theorem get?_eq_none_iff {r : Roster name} {n : String} :
    r.get? n = none ↔ ∀ x ∈ r.toList, name x ≠ n := by
  simp [get?]

theorem contains_iff {r : Roster name} {n : String} : r.contains n ↔ n ∈ r.names := by
  simp [contains, names, get?]

theorem mem_insert {r : Roster name} {x y : α} :
    y ∈ (r.insert x).toList ↔ y = x ∨ (y ∈ r.toList ∧ name y ≠ name x) := by
  obtain ⟨l, hl⟩ := r
  simp only [insert]
  induction l with
  | nil => simp [place]
  | cons z zs ih =>
    rw [List.pairwise_cons] at hl
    specialize ih hl.2
    have hz : ∀ w ∈ zs, name z < name w := hl.1
    unfold place
    split
    · next hlt =>
      have : ∀ w ∈ z :: zs, name w ≠ name x := fun w hw he => by
        rcases List.mem_cons.1 hw with rfl | hw
        · exact String.lt_irrefl _ (he ▸ hlt)
        · exact String.lt_irrefl _ (String.lt_trans (he ▸ hlt) (hz w hw))
      grind
    · split
      · next he =>
        have : ∀ w ∈ zs, name w ≠ name x := fun w hw hwx => by
          have := hz w hw
          rw [hwx, he] at this
          exact String.lt_irrefl _ this
        grind
      · grind

theorem get?_insert {r : Roster name} {x : α} {n : String} :
    (r.insert x).get? n = if n = name x then some x else r.get? n := by
  split
  · next h => exact get?_eq_some_iff.2 ⟨mem_insert.2 (.inl rfl), h.symm⟩
  · next h =>
    apply Option.ext
    intro y
    simp only [get?_eq_some_iff, mem_insert]
    grind

theorem contains_insert {r : Roster name} {x : α} {n : String} :
    (r.insert x).contains n = (n == name x || r.contains n) := by
  simp only [contains, get?_insert]
  split <;> simp_all

theorem get?_foldl_insert {l : List α} {r : Roster name} {n : String} :
    (l.foldl insert r).get? n = (l.reverse.find? fun x => name x == n).or (r.get? n) := by
  induction l generalizing r with
  | nil => rfl
  | cons x l ih =>
    rw [List.foldl_cons, ih, get?_insert, List.reverse_cons, List.find?_append, Option.or_assoc]
    by_cases h : name x = n
    · simp [h]
    · simp [h, Ne.symm h]

theorem get?_ofList {l : List α} {n : String} :
    (ofList l : Roster name).get? n = l.reverse.find? fun x => name x == n := by
  rw [ofList, get?_foldl_insert]
  exact Option.or_none

theorem mem_of_mem_ofList {l : List α} {x : α} (h : x ∈ (ofList l : Roster name).toList) :
    x ∈ l := by
  have hx : (ofList l : Roster name).get? (name x) = some x := get?_eq_some_iff.2 ⟨h, rfl⟩
  rw [get?_ofList] at hx
  exact List.mem_reverse.1 (List.mem_of_find?_eq_some hx)

theorem contains_ofList {l : List α} {n : String} :
    (ofList l : Roster name).contains n ↔ ∃ x ∈ l, name x = n := by
  simp [contains, get?_ofList]

theorem filter_name_eq (r : Roster name) (n : String) :
    r.toList.filter (fun x => name x == n) = (r.get? n).toList := by
  obtain ⟨l, hl⟩ := r
  simp only [get?]
  induction l with
  | nil => rfl
  | cons y ys ih =>
    rw [List.pairwise_cons] at hl
    rw [List.filter_cons, List.find?_cons]
    cases hy : name y == n with
    | false => exact ih hl.2
    | true =>
      have hn : ∀ x ∈ ys, ¬ (name x == n) := fun x hx he => by
        have hlt := hl.1 x hx
        rw [beq_iff_eq.1 hy, beq_iff_eq.1 he] at hlt
        exact String.lt_irrefl _ hlt
      simp [List.filter_eq_nil_iff.2 hn]

theorem mem_filter {r : Roster name} {p : α → Bool} {x : α} :
    x ∈ (r.filter p).toList ↔ x ∈ r.toList ∧ p x := by
  simp [filter]

theorem nodup (r : Roster name) : r.toList.Nodup := by
  refine r.sorted.imp fun {a b} hab => ?_
  rintro rfl
  exact String.lt_irrefl _ hab

theorem nodup_names (r : Roster name) : r.names.Nodup := by
  rw [names, List.Nodup, List.pairwise_map]
  exact r.sorted.imp String.ne_of_lt

theorem ext_mem {r s : Roster name} (h : ∀ x, x ∈ r.toList ↔ x ∈ s.toList) : r = s :=
  toList_injective <| List.Perm.eq_of_pairwise
    (fun _ _ _ _ hab hba => absurd hba (String.lt_asymm hab)) r.sorted s.sorted <|
    (List.perm_ext_iff_of_nodup r.nodup s.nodup).2 h

theorem ext_get? {r s : Roster name} (h : ∀ n, r.get? n = s.get? n) : r = s :=
  ext_mem fun x => by
    have := h (name x)
    constructor
    · intro hx
      exact (get?_eq_some_iff.1 (this ▸ get?_eq_some_iff.2 ⟨hx, rfl⟩)).1
    · intro hx
      exact (get?_eq_some_iff.1 (this ▸ get?_eq_some_iff.2 ⟨hx, rfl⟩)).1

/-- A list in the order of names is a roster as it is. -/
theorem toList_ofList {l : List α} (h : l.Pairwise fun a b => name a < name b) :
    (ofList l : Roster name).toList = l := by
  suffices hr : ofList l = (⟨l, h⟩ : Roster name) by rw [hr]
  refine ext_get? fun n => ?_
  rw [get?_ofList]
  cases hx : l.reverse.find? fun x => name x == n with
  | none =>
    refine (get?_eq_none_iff.2 fun x hm => ?_).symm
    simpa using List.find?_eq_none.1 hx x (List.mem_reverse.2 hm)
  | some x =>
    have hm : x ∈ l := List.mem_reverse.1 (List.mem_of_find?_eq_some hx)
    exact (get?_eq_some_iff.2 ⟨hm, by simpa using List.find?_some hx⟩).symm

end Roster

abbrev NameSet := Roster fun s : String => s

namespace NameSet

instance : Membership String NameSet := ⟨fun s n => n ∈ s.toList⟩

instance (n : String) (s : NameSet) : Decidable (n ∈ s) :=
  inferInstanceAs (Decidable (n ∈ s.toList))

def union (s t : NameSet) : NameSet := t.toList.foldl Roster.insert s

instance : Union NameSet := ⟨union⟩

theorem mem_def {s : NameSet} {n : String} : n ∈ s ↔ n ∈ s.toList := Iff.rfl

@[simp] theorem not_mem_empty {n : String} : n ∉ (∅ : NameSet) := List.not_mem_nil

theorem mem_insert {s : NameSet} {m n : String} : m ∈ s.insert n ↔ m = n ∨ m ∈ s := by
  rw [mem_def, Roster.mem_insert, mem_def]
  grind

theorem mem_foldl_insert {l : List String} {s : NameSet} {n : String} :
    n ∈ l.foldl Roster.insert s ↔ n ∈ s ∨ n ∈ l := by
  induction l generalizing s with
  | nil => simp
  | cons m l ih => rw [List.foldl_cons, ih, mem_insert]; grind

theorem mem_ofList {l : List String} {n : String} : n ∈ (Roster.ofList l : NameSet) ↔ n ∈ l := by
  rw [Roster.ofList, mem_foldl_insert]
  simp [mem_def, Roster.empty]

theorem size_ofList {l : List String} (h : l.Nodup) : (Roster.ofList l : NameSet).size = l.length :=
  ((List.perm_ext_iff_of_nodup (Roster.nodup _) h).2 fun _ => mem_ofList).length_eq

theorem mem_union {s t : NameSet} {n : String} : n ∈ s ∪ t ↔ n ∈ s ∨ n ∈ t :=
  mem_foldl_insert

theorem mem_filter {s : NameSet} {p : String → Bool} {n : String} :
    n ∈ s.filter p ↔ n ∈ s ∧ p n := Roster.mem_filter

theorem ext {s t : NameSet} (h : ∀ n, n ∈ s ↔ n ∈ t) : s = t := Roster.ext_mem h

end NameSet

end LoadTiers
