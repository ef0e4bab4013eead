import Mathlib.Data.List.Forall2

/-! # First failures

The first element that satisfies a condition, in an order and in a list that is sorted by it. A
traversal of a list fails at the first element where its step fails. A lookup finds the first entry
with its key, also after other keys were taken out.
-/

namespace LoadTiers

variable {α β ε : Type}

def IsFirst (r : α → α → Prop) (P : α → Prop) (x : α) : Prop :=
  P x ∧ ∀ y, P y → y = x ∨ r x y

theorem IsFirst.unique {r : α → α → Prop} {P : α → Prop} {x y : α}
    (hr : ∀ a b, r a b → ¬ r b a) (hx : IsFirst r P x) (hy : IsFirst r P y) : x = y := by
  rcases hx.2 y hy.1 with he | hxy
  · exact he.symm
  · rcases hy.2 x hx.1 with he | hyx
    · exact he
    · exact absurd hyx (hr x y hxy)

theorem isFirst_of_find? {r : α → α → Prop} {l : List α} (hl : l.Pairwise r) {p : α → Bool} {x : α}
    (h : l.find? p = some x) : IsFirst r (fun y => y ∈ l ∧ p y) x := by
  obtain ⟨hp, before, after, rfl, hb⟩ := List.find?_eq_some_iff_append.mp h
  refine ⟨⟨by simp, hp⟩, ?_⟩
  rintro y ⟨hy, hpy⟩
  rcases List.mem_append.mp hy with hy | hy
  · exact absurd hpy (by simpa using hb y hy)
  · rcases List.mem_cons.mp hy with he | hy
    · exact .inl he
    · exact .inr ((List.pairwise_cons.mp (List.pairwise_append.mp hl).2.1).1 y hy)

theorem find?_eq_some_iff_isFirst {r : α → α → Prop} (hr : ∀ a b, r a b → ¬ r b a)
    {l : List α} (hl : l.Pairwise r) {p : α → Bool} {x : α} :
    l.find? p = some x ↔ IsFirst r (fun y => y ∈ l ∧ p y) x := by
  refine ⟨isFirst_of_find? hl, fun h => ?_⟩
  cases hf : l.find? p with
  | none => exact absurd h.1.2 (List.find?_eq_none.mp hf x h.1.1)
  | some y => rw [(isFirst_of_find? hl hf).unique hr h]

section Lookup

variable [BEq α] [LawfulBEq α] {q : α → Bool} {k m : α}

theorem lookup_filter_of_pos (h : q k) (l : List (α × β)) :
    (l.filter (q ·.1)).lookup k = l.lookup k := by
  induction l with
  | nil => rfl
  | cons x l ih =>
    by_cases hx : q x.1
    · rw [List.filter_cons, if_pos hx, List.lookup_cons, List.lookup_cons, ih]
    · have hk : (k == x.1) = false := by
        rw [beq_eq_false_iff_ne]
        rintro rfl
        exact hx h
      rw [List.filter_cons, if_neg hx, ih, List.lookup_cons, hk]

theorem lookup_filter_of_neg (h : ¬ q k) (l : List (α × β)) :
    (l.filter (q ·.1)).lookup k = none := by
  rw [List.lookup_eq_none_iff]
  intro x hx
  have hk : k ≠ x.1 := fun he => h (he ▸ (List.mem_filter.mp hx).2)
  simpa using hk

theorem lookup_filter_ne [DecidableEq α] (h : m ≠ k) (l : List (α × β)) :
    (l.filter (·.1 ≠ k)).lookup m = l.lookup m :=
  lookup_filter_of_pos (q := fun n => n ≠ k) (by simpa using h) l

theorem lookup_filter_self [DecidableEq α] (k : α) (l : List (α × β)) :
    (l.filter (·.1 ≠ k)).lookup k = none :=
  lookup_filter_of_neg (q := fun n => n ≠ k) (by simp) l

end Lookup

section Except

@[simp] theorem ok_bind (a : α) (f : α → Except ε β) : (Except.ok a >>= f) = f a := rfl
@[simp] theorem error_bind (e : ε) (f : α → Except ε β) : (Except.error e >>= f) = .error e := rfl
@[simp] theorem discard_ok (a : α) : discard (.ok a : Except ε α) = .ok () := rfl
@[simp] theorem discard_error (e : ε) : discard (.error e : Except ε α) = .error e := rfl
@[simp] theorem isOk_ok (a : α) : (.ok a : Except ε α).isOk = true := rfl
@[simp] theorem isOk_error (e : ε) : (.error e : Except ε α).isOk = false := rfl

theorem isOk_eq_false_iff {x : Except ε α} : x.isOk = false ↔ ∃ e, x = .error e := by
  cases x <;> simp

theorem bind_eq_ok_iff {x : Except ε α} {f : α → Except ε β} {b : β} :
    x >>= f = .ok b ↔ ∃ a, x = .ok a ∧ f a = .ok b := by
  cases x <;> simp

theorem bind_eq_error_iff {x : Except ε α} {f : α → Except ε β} {e : ε} :
    x >>= f = .error e ↔ x = .error e ∨ ∃ a, x = .ok a ∧ f a = .error e := by
  cases x <;> simp

theorem mapM_eq_ok_iff {f : α → Except ε β} {l : List α} {ys : List β} :
    l.mapM f = .ok ys ↔ List.Forall₂ (fun x y => f x = .ok y) l ys := by
  induction l generalizing ys with
  | nil =>
    rw [List.mapM_nil, List.forall₂_nil_left_iff]
    exact ⟨fun h => (Except.ok.inj h).symm, fun h => h ▸ rfl⟩
  | cons x l ih =>
    rw [List.mapM_cons, List.forall₂_cons_left_iff]
    simp only [← ih]
    cases hx : f x with
    | error e => simp
    | ok y =>
      cases hl : l.mapM f with
      | error e => simp
      | ok zs =>
        simp only [ok_bind, pure, Except.pure, Except.ok.injEq]
        constructor
        · rintro rfl; exact ⟨y, zs, rfl, rfl, rfl⟩
        · rintro ⟨_, _, rfl, rfl, rfl⟩; rfl

theorem mem_of_mapM_eq_ok {f : α → Except ε β} {l : List α} {ys : List β}
    (h : l.mapM f = .ok ys) {y : β} : y ∈ ys ↔ ∃ x ∈ l, f x = .ok y := by
  induction mapM_eq_ok_iff.mp h with
  | nil => simp
  | @cons x z l zs hz hl ih =>
    rw [List.mem_cons, ih (mapM_eq_ok_iff.mpr hl), List.exists_mem_cons_iff, hz, Except.ok.injEq,
      eq_comm]

theorem mapM_append_cons_eq_ok {f : α → Except ε β} {l l' : List α} {x : α} {ys : List β}
    (h : (l ++ x :: l').mapM f = .ok ys) : ∃ zs y zs',
      l.mapM f = .ok zs ∧ f x = .ok y ∧ l'.mapM f = .ok zs' ∧ ys = zs ++ y :: zs' := by
  rw [List.mapM_append, bind_eq_ok_iff] at h
  obtain ⟨zs, hz, h⟩ := h
  rw [List.mapM_cons, bind_eq_ok_iff] at h
  obtain ⟨ws, hw, h⟩ := h
  obtain ⟨y, hy, hw⟩ := bind_eq_ok_iff.mp hw
  obtain ⟨zs', hz', hw⟩ := bind_eq_ok_iff.mp hw
  cases h
  cases hw
  exact ⟨zs, y, zs', hz, hy, hz', rfl⟩

theorem mapM_eq_error_iff {f : α → Except ε β} {l : List α} {e : ε} :
    l.mapM f = .error e ↔ ∃ x, l.find? (fun y => !(f y).isOk) = some x ∧ f x = .error e := by
  induction l with
  | nil => simp [pure, Except.pure]
  | cons x l ih =>
    rw [List.mapM_cons, List.find?_cons]
    cases hx : f x with
    | error e' => simp [hx]
    | ok y =>
      simp only [ok_bind, isOk_ok, Bool.not_true, ← ih]
      cases hl : l.mapM f <;> simp [pure, Except.pure]

/-- In an ordered list the first failure decides. -/
theorem mapM_eq_error_iff_isFirst {r : α → α → Prop} (hr : ∀ a b, r a b → ¬ r b a)
    {f : α → Except ε β} {l : List α} (hl : l.Pairwise r) {e : ε} :
    l.mapM f = .error e ↔
      ∃ x, IsFirst r (fun y => y ∈ l ∧ ∃ e, f y = .error e) x ∧ f x = .error e := by
  rw [mapM_eq_error_iff]
  simp [find?_eq_some_iff_isFirst hr hl, isOk_eq_false_iff]

theorem forM_eq_ok_iff {f : α → Except ε Unit} {l : List α} :
    forM l f = .ok () ↔ ∀ x ∈ l, f x = .ok () := by
  induction l with
  | nil => simp [pure, Except.pure]
  | cons x l ih =>
    rw [List.forM_cons, bind_eq_ok_iff, List.forall_mem_cons, ih]
    exact ⟨fun ⟨⟨⟩, hx, hl⟩ => ⟨hx, hl⟩, fun ⟨hx, hl⟩ => ⟨(), hx, hl⟩⟩

theorem forM_eq_error_iff {f : α → Except ε Unit} {l : List α} {e : ε} :
    forM l f = .error e ↔ ∃ x, l.find? (fun y => !(f y).isOk) = some x ∧ f x = .error e := by
  induction l with
  | nil => simp [pure, Except.pure]
  | cons x l ih =>
    rw [List.forM_cons, List.find?_cons]
    cases hx : f x with
    | error e' => simp [hx]
    | ok y => simp [ih]

theorem forM_eq_error_iff_isFirst {r : α → α → Prop} (hr : ∀ a b, r a b → ¬ r b a)
    {f : α → Except ε Unit} {l : List α} (hl : l.Pairwise r) {e : ε} :
    forM l f = .error e ↔
      ∃ x, IsFirst r (fun y => y ∈ l ∧ ∃ e, f y = .error e) x ∧ f x = .error e := by
  rw [forM_eq_error_iff]
  simp [find?_eq_some_iff_isFirst hr hl, isOk_eq_false_iff]

theorem forM_flatMap {γ : Type} {f : β → Except ε Unit} {g : γ → List β} {l : List γ} :
    forM (l.flatMap g) f = forM l fun x => forM (g x) f := by
  induction l with
  | nil => rfl
  | cons x l ih => rw [List.flatMap_cons, List.forM_append, List.forM_cons, ih]

end Except

end LoadTiers
