import LoadTiers.Arguments
import LoadTiers.Proofs.First

/-! # Leaving options out and adding them

An accepted list of arguments is accepted without one of its options as well, or without all that
are in a list, and then gives all its other arguments. It is accepted after an option that it does
not give.
-/

namespace LoadTiers.Arguments

variable {s : Signature} {p p' : Arguments} {waiting : Option String} {args rest ks : List String}
  {a k option value v : String}

theorem addValue_eq_some_iff : p.addValue option value = some p' ↔
    p.values.lookup option = none ∧ { p with values := (option, value) :: p.values } = p' := by
  unfold addValue
  cases p.values.lookup option <;> simp

theorem addFlag_eq_some_iff : p.addFlag option = some p' ↔
    option ∉ p.flags ∧ { p with flags := option :: p.flags } = p' := by
  unfold addFlag
  by_cases h : option ∈ p.flags <;> simp [h]

/-- How arguments are read after those of `p`, step by step. -/
inductive ReadsAs (s : Signature) :
    Arguments → Option String → List String → Arguments → Prop where
  | done {p : Arguments} : ReadsAs s p none [] p
  | value {p p' : Arguments} {option a : String} {rest : List String} :
      isOption a = false → p.values.lookup option = none →
      ReadsAs s { p with values := (option, a) :: p.values } none rest p' →
      ReadsAs s p (some option) (a :: rest) p'
  | names {p : Arguments} {rest : List String} :
      ReadsAs s p none ("--" :: rest) { p with names := p.names ++ rest }
  | attached {p p' : Arguments} {a option value : String} {rest : List String} :
      a ≠ "--" → isOption a = true → attached a = (option, some value) → option ∈ s.values →
      p.values.lookup option = none →
      ReadsAs s { p with values := (option, value) :: p.values } none rest p' →
      ReadsAs s p none (a :: rest) p'
  | option {p p' : Arguments} {a option : String} {rest : List String} :
      a ≠ "--" → isOption a = true → attached a = (option, none) → option ∈ s.values →
      ReadsAs s p (some option) rest p' → ReadsAs s p none (a :: rest) p'
  | flag {p p' : Arguments} {a option : String} {rest : List String} :
      a ≠ "--" → isOption a = true → attached a = (option, none) → option ∉ s.values →
      option ∈ s.flags → option ∉ p.flags →
      ReadsAs s { p with flags := option :: p.flags } none rest p' →
      ReadsAs s p none (a :: rest) p'
  | name {p p' : Arguments} {a : String} {rest : List String} :
      a ≠ "--" → isOption a = false →
      ReadsAs s { p with names := p.names ++ [a] } none rest p' →
      ReadsAs s p none (a :: rest) p'

theorem readAfter_eq_some_iff :
    readAfter s p waiting args = some p' ↔ ReadsAs s p waiting args p' := by
  constructor
  · intro h
    induction args generalizing p waiting with
    | nil =>
      cases waiting with
      | none =>
        obtain rfl := Option.some.inj h
        exact .done
      | some option => cases h
    | cons a rest ih =>
      cases waiting with
      | some option =>
        simp only [readAfter] at h
        split at h
        · cases h
        · next ha =>
          obtain ⟨_, hp, h⟩ := Option.bind_eq_some_iff.mp h
          obtain ⟨hl, rfl⟩ := addValue_eq_some_iff.mp hp
          exact .value (Bool.eq_false_iff.mpr ha) hl (ih h)
      | none =>
        simp only [readAfter] at h
        split at h
        · next ha =>
          obtain rfl := Option.some.inj h
          exact ha ▸ .names
        · next ha =>
          split at h
          · next hopt =>
            split at h
            · next option value hat =>
              split at h
              · next hs =>
                obtain ⟨_, hp, h⟩ := Option.bind_eq_some_iff.mp h
                obtain ⟨hl, rfl⟩ := addValue_eq_some_iff.mp hp
                exact .attached ha hopt hat hs hl (ih h)
              · cases h
            · next option hat =>
              split at h
              · next hs => exact .option ha hopt hat hs (ih h)
              · next hs =>
                split at h
                · next hf =>
                  obtain ⟨_, hp, h⟩ := Option.bind_eq_some_iff.mp h
                  obtain ⟨hl, rfl⟩ := addFlag_eq_some_iff.mp hp
                  exact .flag ha hopt hat hs hf hl (ih h)
                · cases h
          · next hopt => exact .name ha (Bool.eq_false_iff.mpr hopt) (ih h)
  · intro h
    induction h with
    | done => rfl
    | value ha hl _ ih =>
      simp only [readAfter, ha, Bool.false_eq_true, if_false]
      exact Option.bind_eq_some_iff.mpr ⟨_, addValue_eq_some_iff.mpr ⟨hl, rfl⟩, ih⟩
    | names => simp only [readAfter, if_true]
    | attached ha hopt hat hs hl _ ih =>
      simp only [readAfter, ha, hopt, hat, hs, if_false, if_true]
      exact Option.bind_eq_some_iff.mpr ⟨_, addValue_eq_some_iff.mpr ⟨hl, rfl⟩, ih⟩
    | option ha hopt hat hs _ ih =>
      simp only [readAfter, ha, hopt, hat, hs, if_false, if_true, ih]
    | flag ha hopt hat hs hf hl _ ih =>
      simp only [readAfter, ha, hopt, hat, hs, hf, if_false, if_true]
      exact Option.bind_eq_some_iff.mpr ⟨_, addFlag_eq_some_iff.mpr ⟨hl, rfl⟩, ih⟩
    | name ha hopt _ ih =>
      simp only [readAfter, ha, hopt, Bool.false_eq_true, if_false, ih]

theorem ReadsAs.lookup_eq (h : ReadsAs s p waiting args p') (hk : p.values.lookup k = some v) :
    p'.values.lookup k = some v := by
  have hne : ∀ {p : Arguments} {option : String}, p.values.lookup k = some v →
      p.values.lookup option = none → ∀ x, ((option, x) :: p.values).lookup k = some v := by
    intro p option hk ho x
    have hko : (k == option) = false := by
      rw [beq_eq_false_iff_ne]
      rintro rfl
      rw [hk] at ho
      cases ho
    rw [List.lookup_cons, hko, hk]
  induction h with
  | done => exact hk
  | names => exact hk
  | value _ ho _ ih => exact ih (hne hk ho _)
  | attached _ _ _ _ ho _ ih => exact ih (hne hk ho _)
  | option _ _ _ _ _ ih => exact ih hk
  | flag _ _ _ _ _ _ _ ih => exact ih hk
  | name _ _ _ ih => exact ih hk

def drop (p : Arguments) (k : String) : Arguments :=
  { p with values := p.values.filter (·.1 ≠ k) }

theorem lookup_drop_self (p : Arguments) (k : String) : (p.drop k).values.lookup k = none :=
  lookup_filter_self k p.values

theorem lookup_drop (p : Arguments) (h : option ≠ k) :
    (p.drop k).values.lookup option = p.values.lookup option :=
  lookup_filter_ne h p.values

theorem drop_eq_self (h : p.values.lookup k = none) : p.drop k = p := by
  have hf : p.values.filter (·.1 ≠ k) = p.values := by
    rw [List.filter_eq_self]
    intro x hx
    have hne : k ≠ x.1 := by simpa using List.lookup_eq_none_iff.mp h x hx
    simpa using hne.symm
  rw [drop, hf]

theorem drop_addValue (h : option ≠ k) :
    ({ p with values := (option, value) :: p.values } : Arguments).drop k =
      { p.drop k with values := (option, value) :: (p.drop k).values } := by
  simp [drop, h]

theorem drop_addValue_self (h : p.values.lookup k = none) :
    ({ p with values := (k, value) :: p.values } : Arguments).drop k = p := by
  have hp := drop_eq_self h
  simp only [drop, List.filter_cons_of_neg, ne_eq, not_true, decide_false, Bool.false_eq_true,
    not_false_eq_true] at hp ⊢
  exact hp

/-- After an option has its value, what is still to come can be read without it. -/
theorem ReadsAs.drop (h : ReadsAs s p waiting args p') (hk : (p.values.lookup k).isSome) :
    ReadsAs s (p.drop k) waiting args (p'.drop k) := by
  have hne : ∀ {p : Arguments} {option : String}, (p.values.lookup k).isSome →
      p.values.lookup option = none → option ≠ k := by
    rintro p option hk ho rfl
    simp [ho] at hk
  have hk' : ∀ {p : Arguments} {option x : String}, (p.values.lookup k).isSome →
      (((option, x) :: p.values).lookup k).isSome := by
    intro p option x hk
    rw [List.lookup_cons]
    split
    · rfl
    · exact hk
  induction h with
  | done => exact .done
  | names => exact .names
  | value ha ho _ ih =>
    have hn := hne hk ho
    have h' := ih (hk' hk)
    rw [drop_addValue hn] at h'
    exact .value ha (by rw [lookup_drop _ hn, ho]) h'
  | attached ha hopt hat hs ho _ ih =>
    have hn := hne hk ho
    have h' := ih (hk' hk)
    rw [drop_addValue hn] at h'
    exact .attached ha hopt hat hs (by rw [lookup_drop _ hn, ho]) h'
  | option ha hopt hat hs _ ih => exact .option ha hopt hat hs (ih hk)
  | flag ha hopt hat hs hf hl _ ih => exact .flag ha hopt hat hs hf hl (ih hk)
  | name ha hopt _ ih => exact .name ha hopt (ih hk)

theorem eq_of_attached_none (h : attached a = (option, none)) : a = option := by
  simp only [attached] at h
  split at h
  · exact (Prod.mk.inj h).1
  · cases h

theorem eq_of_attached_some (h : attached a = (option, some value)) :
    a = option ++ "=" ++ value := by
  simp only [attached] at h
  split at h
  · cases h
  · next c rest hd =>
    obtain ⟨rfl, hv⟩ := Prod.mk.inj h
    obtain rfl := Option.some.inj hv
    have hc : c = '=' := by
      have := List.head?_dropWhile_not (fun c => !(c == '=')) a.toList
      rw [hd] at this
      simpa using this
    subst hc
    apply String.toList_injective
    simp only [String.toList_append, String.toList_ofList]
    have := List.takeWhile_append_dropWhile (p := fun c => !(c == '=')) (l := a.toList)
    rw [hd] at this
    simpa using this.symm

/-- The arguments that give an option its value: it stands alone, or after an equals sign. -/
def Gives (k v : String) (tokens : List String) : Prop := tokens = [k, v] ∨ tokens = [k ++ "=" ++ v]

/-- An option that is given is given in one place, and the arguments can be read without it. -/
theorem ReadsAs.exists_without (h : ReadsAs s p waiting args p')
    (hk : p.values.lookup k = none) (hw : waiting ≠ some k)
    (hv : p'.values.lookup k = some v) : ∃ before tokens after,
      args = before ++ tokens ++ after ∧ Gives k v tokens ∧
        ReadsAs s p waiting (before ++ after) (p'.drop k) := by
  have hne : ∀ {p : Arguments} {option x : String}, p.values.lookup k = none → option ≠ k →
      ((option, x) :: p.values).lookup k = none := by
    intro p option x hk hn
    have hko : (k == option) = false := by simpa using Ne.symm hn
    rw [List.lookup_cons, hko, hk]
  induction h with
  | done => rw [hk] at hv; cases hv
  | names => rw [hk] at hv; cases hv
  | @value _ _ option a _ ha ho _ ih =>
    have hn : option ≠ k := fun h => hw (congrArg _ h)
    obtain ⟨before, tokens, after, rfl, ht, hr⟩ := ih (hne hk hn) nofun hv
    exact ⟨a :: before, tokens, after, rfl, ht, .value ha ho hr⟩
  | @attached p p' a option value rest ha hopt hat hs ho hr ih =>
    by_cases hn : option = k
    · -- the option with its value in one argument
      subst hn
      have hval : ((option, value) :: p.values).lookup option = some value := by simp
      obtain rfl := Option.some.inj ((hr.lookup_eq hval).symm.trans hv)
      have hd := hr.drop (by rw [hval]; rfl)
      rw [drop_addValue_self hk] at hd
      exact ⟨[], [a], rest, rfl, .inr (by rw [eq_of_attached_some hat]), hd⟩
    · obtain ⟨before, tokens, after, rfl, ht, hr⟩ := ih (hne hk hn) nofun hv
      exact ⟨a :: before, tokens, after, rfl, ht, .attached ha hopt hat hs ho hr⟩
  | @option p p' a option rest ha hopt hat hs hr ih =>
    by_cases hn : option = k
    · -- the option, whose value is the next argument
      subst hn
      cases hr with
      | @value _ _ _ value rest _ _ hr =>
        have hval : ((option, value) :: p.values).lookup option = some value := by simp
        obtain rfl := Option.some.inj ((hr.lookup_eq hval).symm.trans hv)
        have hd := hr.drop (by rw [hval]; rfl)
        rw [drop_addValue_self hk] at hd
        exact ⟨[], [a, value], rest, rfl, .inl (by rw [eq_of_attached_none hat]), hd⟩
    · obtain ⟨before, tokens, after, rfl, ht, hr⟩ := ih hk (fun h => hn (Option.some.inj h)) hv
      exact ⟨a :: before, tokens, after, rfl, ht, .option ha hopt hat hs hr⟩
  | @flag _ _ a _ _ ha hopt hat hs hf hl _ ih =>
    obtain ⟨before, tokens, after, rfl, ht, hr⟩ := ih hk nofun hv
    exact ⟨a :: before, tokens, after, rfl, ht, .flag ha hopt hat hs hf hl hr⟩
  | @name _ _ a _ ha hopt _ ih =>
    obtain ⟨before, tokens, after, rfl, ht, hr⟩ := ih hk nofun hv
    exact ⟨a :: before, tokens, after, rfl, ht, .name ha hopt hr⟩

theorem read_eq_some_iff : read s args = some p ↔
    ReadsAs s {} none args p ∧ (p.names.isEmpty != s.names) = true := by
  rw [read, Option.filter_eq_some_iff, readAfter_eq_some_iff]

theorem exists_read_drop (h : read s args = some p) (hv : p.values.lookup k = some v) :
    ∃ before tokens after, args = before ++ tokens ++ after ∧ Gives k v tokens ∧
      read s (before ++ after) = some (p.drop k) := by
  obtain ⟨hr, hn⟩ := read_eq_some_iff.mp h
  obtain ⟨before, tokens, after, rfl, ht, hd⟩ := hr.exists_without rfl nofun hv
  exact ⟨before, tokens, after, rfl, ht, read_eq_some_iff.mpr ⟨hd, hn⟩⟩

def without (p : Arguments) (ks : List String) : Arguments where
  values := p.values.filter (·.1 ∉ ks)
  flags := p.flags.filter (· ∉ ks)
  names := p.names

theorem lookup_without (p : Arguments) (h : k ∉ ks) :
    (p.without ks).values.lookup k = p.values.lookup k :=
  lookup_filter_of_pos (q := fun n => n ∉ ks) (by simpa using h) p.values

theorem lookup_without_of_mem (p : Arguments) (h : k ∈ ks) :
    (p.without ks).values.lookup k = none :=
  lookup_filter_of_neg (q := fun n => n ∉ ks) (by simpa using h) p.values

theorem mem_flags_without : k ∈ (p.without ks).flags ↔ k ∈ p.flags ∧ k ∉ ks := by
  simp [without]

theorem without_addValue (p : Arguments) (option value : String) :
    ({ p with values := (option, value) :: p.values } : Arguments).without ks =
      if option ∈ ks then p.without ks
      else { p.without ks with values := (option, value) :: (p.without ks).values } := by
  by_cases h : option ∈ ks <;> simp [without, h]

theorem without_addFlag (p : Arguments) (option : String) :
    ({ p with flags := option :: p.flags } : Arguments).without ks =
      if option ∈ ks then p.without ks
      else { p.without ks with flags := option :: (p.without ks).flags } := by
  by_cases h : option ∈ ks <;> simp [without, h]

/-- What is read without some options stands, in the same order, in what is read with them. -/
theorem ReadsAs.exists_sublist (h : ReadsAs s p waiting args p') (ks : List String) :
    ∃ args', args'.Sublist args ∧
      ReadsAs s (p.without ks) (waiting.filter (· ∉ ks)) args' (p'.without ks) := by
  induction h with
  | done => exact ⟨[], .slnil, .done⟩
  | names => exact ⟨_, .refl _, .names⟩
  | @value p p' option a rest ha ho _ ih =>
    obtain ⟨args', hsub, hr⟩ := ih
    rw [without_addValue] at hr
    by_cases hk : option ∈ ks
    · rw [if_pos hk] at hr
      rw [Option.filter_some, if_neg (by simpa using hk)]
      exact ⟨args', hsub.cons a, hr⟩
    · rw [if_neg hk] at hr
      rw [Option.filter_some, if_pos (by simpa using hk)]
      exact ⟨a :: args', hsub.cons_cons a, .value ha (by rw [lookup_without p hk, ho]) hr⟩
  | @attached p p' a option value rest ha hopt hat hs ho _ ih =>
    obtain ⟨args', hsub, hr⟩ := ih
    rw [without_addValue] at hr
    by_cases hk : option ∈ ks
    · rw [if_pos hk] at hr
      exact ⟨args', hsub.cons a, hr⟩
    · rw [if_neg hk] at hr
      exact ⟨a :: args', hsub.cons_cons a,
        .attached ha hopt hat hs (by rw [lookup_without p hk, ho]) hr⟩
  | @option p p' a option rest ha hopt hat hs _ ih =>
    obtain ⟨args', hsub, hr⟩ := ih
    by_cases hk : option ∈ ks
    · rw [Option.filter_some, if_neg (by simpa using hk)] at hr
      exact ⟨args', hsub.cons a, hr⟩
    · rw [Option.filter_some, if_pos (by simpa using hk)] at hr
      exact ⟨a :: args', hsub.cons_cons a, .option ha hopt hat hs hr⟩
  | @flag p p' a option rest ha hopt hat hs hf hl _ ih =>
    obtain ⟨args', hsub, hr⟩ := ih
    rw [without_addFlag] at hr
    by_cases hk : option ∈ ks
    · rw [if_pos hk] at hr
      exact ⟨args', hsub.cons a, hr⟩
    · rw [if_neg hk] at hr
      exact ⟨a :: args', hsub.cons_cons a,
        .flag ha hopt hat hs hf (fun h => hl (mem_flags_without.mp h).1) hr⟩
  | @name p p' a rest ha hopt _ ih =>
    obtain ⟨args', hsub, hr⟩ := ih
    exact ⟨a :: args', hsub.cons_cons a, .name ha hopt hr⟩

theorem exists_read_without (h : read s args = some p) (ks : List String) :
    ∃ args', args'.Sublist args ∧ read s args' = some (p.without ks) := by
  obtain ⟨hr, hn⟩ := read_eq_some_iff.mp h
  obtain ⟨args', hsub, hr'⟩ := hr.exists_sublist ks
  exact ⟨args', hsub, read_eq_some_iff.mpr ⟨hr', hn⟩⟩

theorem attached_append (hk : '=' ∉ k.toList) (v : String) :
    attached (k ++ "=" ++ v) = (k, some v) := by
  have hl : (k ++ "=" ++ v).toList = k.toList ++ '=' :: v.toList := by simp
  have hne : ∀ c ∈ k.toList, (!c == '=') = true := by
    intro c hc
    have hc' : c ≠ '=' := fun h => hk (h ▸ hc)
    simpa using hc'
  simp only [attached, hl, List.dropWhile_append_of_pos hne, List.takeWhile_append_of_pos hne]
  simp

theorem isOption_append (hk : isOption k) (v : String) :
    (k ++ "=" ++ v) ≠ "--" ∧ isOption (k ++ "=" ++ v) := by
  obtain ⟨hstart, -⟩ : k.startsWith "-" ∧ k ≠ "-" := by simpa [isOption] using hk
  have hmem : '=' ∈ (k ++ "=" ++ v).toList := by simp
  have hlacks : ∀ s : String, '=' ∉ s.toList → k ++ "=" ++ v ≠ s := by
    rintro s hs rfl
    exact hs hmem
  refine ⟨hlacks "--" (by decide), ?_⟩
  have hprefix : (k ++ "=" ++ v).startsWith "-" := by
    rw [String.startsWith_string_iff] at hstart ⊢
    rw [String.toList_append, String.toList_append, List.append_assoc]
    exact hstart.trans (List.prefix_append ..)
  simpa [isOption, hprefix] using hlacks "-" (by decide)

def after (p : Arguments) (k v : String) : Arguments := { p with values := p.values ++ [(k, v)] }

theorem lookup_after (p : Arguments) (k v option : String) :
    (p.after k v).values.lookup option =
      (p.values.lookup option).or (if option = k then some v else none) := by
  rw [after, List.lookup_append, List.lookup_cons, List.lookup_nil]
  by_cases h : option = k
  · simp [h]
  · have hk : (option == k) = false := by simpa using h
    rw [hk, if_neg h]

theorem ReadsAs.after (h : ReadsAs s p waiting args p') (hk : p'.values.lookup k = none)
    (v : String) : ReadsAs s (p.after k v) waiting args (p'.after k v) := by
  have hne : ∀ {p : Arguments} {option a : String} {rest : List String},
      ReadsAs s { p with values := (option, a) :: p.values } none rest p' → option ≠ k := by
    rintro p option a rest hr rfl
    have hval : ((option, a) :: p.values).lookup option = some a := by simp
    cases hk.symm.trans (hr.lookup_eq hval)
  induction h with
  | done => exact .done
  | names => exact .names
  | value ha ho hr ih =>
    exact .value ha (by rw [lookup_after, ho, if_neg (hne hr)]; rfl) (ih hk hne)
  | attached ha hopt hat hs ho hr ih =>
    exact .attached ha hopt hat hs (by rw [lookup_after, ho, if_neg (hne hr)]; rfl) (ih hk hne)
  | option ha hopt hat hs _ ih => exact .option ha hopt hat hs (ih hk hne)
  | flag ha hopt hat hs hf hl _ ih => exact .flag ha hopt hat hs hf hl (ih hk hne)
  | name ha hopt _ ih => exact .name ha hopt (ih hk hne)

theorem read_cons (h : read s args = some p) (hopt : isOption k) (heq : '=' ∉ k.toList)
    (hs : k ∈ s.values) (hk : p.values.lookup k = none) (v : String) :
    read s ((k ++ "=" ++ v) :: args) = some (p.after k v) := by
  obtain ⟨hr, hn⟩ := read_eq_some_iff.mp h
  obtain ⟨hne, hopt'⟩ := isOption_append hopt v
  exact read_eq_some_iff.mpr
    ⟨.attached hne hopt' (attached_append heq v) hs rfl (hr.after hk v), hn⟩

end LoadTiers.Arguments
