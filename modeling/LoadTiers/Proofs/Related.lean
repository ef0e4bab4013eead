import LoadTiers.Proofs.First

/-! # Related lists

Two lists whose elements are related one by one, and what is left of the relation after filters,
look-ups and traversals that take no notice of the difference.
-/

namespace LoadTiers

variable {α β γ ε : Type} {r s : α → β → Prop} {l : List α} {l' : List β} {o : Option α}
  {o' : Option β}

theorem cases_of_rel (h : Option.Rel r o o') :
    o = none ∧ o' = none ∨ ∃ x y, o = some x ∧ o' = some y ∧ r x y := by
  cases h with
  | none => exact .inl ⟨rfl, rfl⟩
  | some hr => exact .inr ⟨_, _, rfl, rfl, hr⟩

theorem rel_of_isSome_iff (h : o.isSome ↔ o'.isSome)
    (hr : ∀ x y, o = some x → o' = some y → r x y) : Option.Rel r o o' := by
  cases o with
  | none =>
    cases o' with
    | none => exact .none
    | some y => exact absurd (h.mpr rfl) Bool.false_ne_true
  | some x =>
    cases o' with
    | none => exact absurd (h.mp rfl) Bool.false_ne_true
    | some y => exact .some (hr x y rfl rfl)

theorem rel_or {a b : Option α} {a' b' : Option β} (h : Option.Rel r a a')
    (h' : Option.Rel r b b') : Option.Rel r (a.or b) (a'.or b') := by
  cases h with
  | none => exact h'
  | some hr => exact .some hr

theorem map_eq_map_of_rel {f : α → γ} {g : β → γ} (h : Option.Rel r o o')
    (hf : ∀ x y, r x y → f x = g y) : o.map f = o'.map g := by
  cases h with
  | none => rfl
  | some hr => exact congrArg some (hf _ _ hr)

theorem bind_eq_bind_of_rel {f : α → Option γ} {g : β → Option γ} (h : Option.Rel r o o')
    (hf : ∀ x y, r x y → f x = g y) : o.bind f = o'.bind g := by
  cases h with
  | none => rfl
  | some hr => exact hf _ _ hr

theorem map_eq_map_of_forall₂ {f : α → γ} {g : β → γ} (h : List.Forall₂ r l l')
    (hf : ∀ x y, r x y → f x = g y) : l.map f = l'.map g := by
  induction h with
  | nil => rfl
  | cons hr _ ih => rw [List.map_cons, List.map_cons, hf _ _ hr, ih]

theorem filterMap_eq_filterMap_of_forall₂ {f : α → Option γ} {g : β → Option γ}
    (h : List.Forall₂ r l l') (hf : ∀ x y, r x y → f x = g y) :
    l.filterMap f = l'.filterMap g := by
  induction h with
  | nil => rfl
  | cons hr _ ih => rw [List.filterMap_cons, List.filterMap_cons, hf _ _ hr, ih]

theorem foldl_eq_foldl_of_forall₂ {f : γ → α → γ} {g : γ → β → γ} (h : List.Forall₂ r l l')
    (hf : ∀ z x y, r x y → f z x = g z y) (z : γ) : l.foldl f z = l'.foldl g z := by
  induction h generalizing z with
  | nil => rfl
  | cons hr _ ih => rw [List.foldl_cons, List.foldl_cons, hf z _ _ hr, ih]

theorem exists_of_mem_forall₂ {x : α} (h : List.Forall₂ r l l') (hx : x ∈ l) :
    ∃ y ∈ l', r x y := by
  induction h with
  | nil => cases hx
  | cons hr _ ih =>
    rcases List.mem_cons.mp hx with rfl | hx
    · exact ⟨_, List.mem_cons_self, hr⟩
    · obtain ⟨y, hy, hxy⟩ := ih hx
      exact ⟨y, List.mem_cons_of_mem _ hy, hxy⟩

theorem exists_of_mem_forall₂_right {y : β} (h : List.Forall₂ r l l') (hy : y ∈ l') :
    ∃ x ∈ l, r x y :=
  exists_of_mem_forall₂ h.flip hy

theorem forall₂_and (h : List.Forall₂ r l l') (h' : List.Forall₂ s l l') :
    List.Forall₂ (fun x y => r x y ∧ s x y) l l' := by
  induction h with
  | nil => exact .nil
  | cons hr _ ih =>
    cases h' with
    | cons hs h' => exact .cons ⟨hr, hs⟩ (ih h')

theorem forall₂_dropWhile {p : α → Bool} {q : β → Bool} (h : List.Forall₂ r l l')
    (hp : ∀ x y, r x y → p x = q y) : List.Forall₂ r (l.dropWhile p) (l'.dropWhile q) := by
  induction h with
  | nil => exact .nil
  | @cons x y l l' hr hl ih =>
    rw [List.dropWhile_cons, List.dropWhile_cons, hp x y hr]
    split
    · exact ih
    · exact .cons hr hl

theorem rel_find? {p : α → Bool} {q : β → Bool} (h : List.Forall₂ r l l')
    (hp : ∀ x y, r x y → p x = q y) : Option.Rel r (l.find? p) (l'.find? q) := by
  induction h with
  | nil => exact .none
  | @cons x y l l' hr hl ih =>
    rw [List.find?_cons, List.find?_cons, hp x y hr]
    split
    · exact .some hr
    · exact ih

theorem rel_head? (h : List.Forall₂ r l l') : Option.Rel r l.head? l'.head? := by
  cases h with
  | nil => exact .none
  | cons hr _ => exact .some hr

theorem mapM_eq_mapM_of_forall₂ {f : α → Except ε γ} {g : β → Except ε γ}
    (h : List.Forall₂ r l l') (hf : ∀ x y, r x y → f x = g y) : l.mapM f = l'.mapM g := by
  induction h with
  | nil => rfl
  | cons hr _ ih => rw [List.mapM_cons, List.mapM_cons, hf _ _ hr, ih]

theorem mapM_eq_ok_congr {f : α → Except ε γ} {g : β → Except ε γ} {zs : List γ}
    (h : List.Forall₂ r l l') (hf : ∀ x y z, r x y → (g y = .ok z ↔ f x = .ok z)) :
    l'.mapM g = .ok zs ↔ l.mapM f = .ok zs := by
  rw [mapM_eq_ok_iff, mapM_eq_ok_iff]
  induction h generalizing zs with
  | nil => rw [List.forall₂_nil_left_iff, List.forall₂_nil_left_iff]
  | cons hr _ ih => simp only [List.forall₂_cons_left_iff, hf _ _ _ hr, ih]

/-- If what succeeds on one side has a related result on the other or fails as said there, then so
does a traversal. -/
theorem mapM_of_forall₂ {δ : Type} {f : α → Except ε γ} {g : β → Except ε δ} {s : γ → δ → Prop}
    {P : ε → Prop} {zs : List γ} (h : List.Forall₂ r l l')
    (hf : ∀ x y z, r x y → f x = .ok z →
      (∃ z', g y = .ok z' ∧ s z z') ∨ ∃ e, P e ∧ g y = .error e)
    (hl : l.mapM f = .ok zs) :
    (∃ zs', l'.mapM g = .ok zs' ∧ List.Forall₂ s zs zs') ∨ ∃ e, P e ∧ l'.mapM g = .error e := by
  induction h generalizing zs with
  | nil =>
    cases hl
    exact .inl ⟨[], rfl, .nil⟩
  | cons hr _ ih =>
    rw [List.mapM_cons, bind_eq_ok_iff] at hl
    obtain ⟨z, hz, hl⟩ := hl
    obtain ⟨ws, hws, hl⟩ := bind_eq_ok_iff.mp hl
    cases hl
    rw [List.mapM_cons]
    rcases hf _ _ z hr hz with ⟨z', hz', hs⟩ | ⟨e, he, hz'⟩
    · rcases ih hws with ⟨ws', hws', hss⟩ | ⟨e, he, hws'⟩
      · exact .inl ⟨z' :: ws', by rw [hz', ok_bind, hws']; rfl, .cons hs hss⟩
      · exact .inr ⟨e, he, by rw [hz', ok_bind, hws', error_bind]⟩
    · exact .inr ⟨e, he, by rw [hz', error_bind]⟩

end LoadTiers
