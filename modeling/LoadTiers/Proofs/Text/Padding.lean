import LoadTiers.Version
import LoadTiers.Proofs.Related

/-! # Padded texts

Blanks at the ends of a text are cut off with those that stand there already, also where the text
is a list or a version. They stay where a quote is cut off before them.
-/

namespace LoadTiers.Text

variable {p : Char → Bool} {s t l r : List Char}

/-- Blanks stand before and after the text. -/
def Pads (s t : List Char) : Prop :=
  ∃ l r, (∀ c ∈ l, isBlank c) ∧ (∀ c ∈ r, isBlank c) ∧ t = l ++ s ++ r

theorem Pads.refl (s : List Char) : Pads s s := ⟨[], [], nofun, nofun, by simp⟩

theorem trimBy_append_left (hl : ∀ c ∈ l, p c) (s : List Char) :
    trimBy p (l ++ s) = trimBy p s := by
  rw [trimBy, List.dropWhile_append_of_pos hl, trimBy]

theorem trimBy_append_right (hr : ∀ c ∈ r, p c) (s : List Char) :
    trimBy p (s ++ r) = trimBy p s := by
  unfold trimBy
  rw [List.dropWhile_append]
  split
  · next h =>
    have hn : (r ++ []).dropWhile p = [] := List.dropWhile_append_of_pos hr
    rw [← List.append_nil r, hn, List.isEmpty_iff.mp h]
  · rw [List.reverse_append, List.dropWhile_append_of_pos fun c hc => hr c (List.mem_reverse.mp hc)]

theorem Pads.trimBy_eq (h : Pads s t) : trimBy isBlank t = trimBy isBlank s := by
  obtain ⟨l, r, hl, hr, rfl⟩ := h
  rw [List.append_assoc, trimBy_append_left hl, trimBy_append_right hr]

theorem pads_trimBy (s : List Char) : Pads (trimBy isBlank s) s := by
  have hall : ∀ t : List Char, ∀ c ∈ t.takeWhile isBlank, isBlank c :=
    fun t => List.all_eq_true.mp List.all_takeWhile
  refine ⟨s.takeWhile isBlank, ((s.dropWhile isBlank).reverse.takeWhile isBlank).reverse,
    hall s, fun c hc => hall _ c (List.mem_reverse.mp hc), ?_⟩
  rw [trimBy, List.append_assoc, ← List.reverse_append, List.takeWhile_append_dropWhile,
    List.reverse_reverse, List.takeWhile_append_dropWhile]

theorem trimBy_trimBy (s : List Char) :
    trimBy isBlank (trimBy isBlank s) = trimBy isBlank s := (pads_trimBy s).trimBy_eq.symm

theorem mem_of_mem_trimBy {c : Char} (h : c ∈ trimBy isBlank s) : c ∈ s := by
  obtain ⟨l, r, -, -, hs⟩ := pads_trimBy s
  rw [hs]
  exact List.mem_append_left r (List.mem_append_right l h)

theorem Pads.trim_eq {s t : String} (h : Pads s.toList t.toList) : trim t = trim s :=
  congrArg String.ofList h.trimBy_eq

section Fields

variable {sep : Char}

theorem isBlank_ne (hsep : isBlank sep = false) {c : Char} (hc : isBlank c) : c ≠ sep := by
  rintro rfl
  rw [hsep] at hc
  cases hc

theorem fields_append_left (hsep : isBlank sep = false) (hl : ∀ c ∈ l, isBlank c)
    (s : List Char) :
    (fields sep (l ++ s)).map (trimBy isBlank) = (fields sep s).map (trimBy isBlank) := by
  induction l with
  | nil => rfl
  | cons c l ih =>
    obtain ⟨hc, hl⟩ := List.forall_mem_cons.mp hl
    rw [← ih hl, List.cons_append, fields, if_neg (isBlank_ne hsep hc)]
    cases hf : fields sep (l ++ s) with
    | nil => exact absurd hf (fields_ne_nil sep _)
    | cons f fs => exact congrArg (· :: _) (trimBy_append_left (List.forall_mem_singleton.mpr hc) f)

/-- Blanks at the end go to the last field, and do not get inside of it. -/
theorem fields_append_right (hsep : isBlank sep = false) (hr : ∀ c ∈ r, isBlank c)
    (s : List Char) : List.Forall₂ (fun f g => ∃ r, (∀ c ∈ r, isBlank c) ∧ g = f ++ r)
      (fields sep s) (fields sep (s ++ r)) := by
  induction s with
  | nil =>
    have hn : sep ∉ r := fun h => isBlank_ne hsep (hr sep h) rfl
    rw [List.nil_append, fields_of_not_mem hn]
    exact .cons ⟨r, hr, rfl⟩ .nil
  | cons c s ih =>
    rw [List.cons_append, fields, fields]
    split
    · exact .cons ⟨[], List.forall_mem_nil _, rfl⟩ ih
    · generalize fields sep s = fs, fields sep (s ++ r) = gs at ih ⊢
      cases ih with
      | nil => exact .cons ⟨[], List.forall_mem_nil _, rfl⟩ .nil
      | cons hf h =>
        obtain ⟨r', hr', rfl⟩ := hf
        exact .cons ⟨r', hr', rfl⟩ h

theorem Pads.fields_eq (hsep : isBlank sep = false) (h : Pads s t) :
    (fields sep t).map (trimBy isBlank) = (fields sep s).map (trimBy isBlank) := by
  obtain ⟨l, r, hl, hr, rfl⟩ := h
  rw [List.append_assoc, fields_append_left hsep hl]
  refine (map_eq_map_of_forall₂ (fields_append_right hsep hr s) ?_).symm
  rintro f g ⟨r', hr', rfl⟩
  exact (trimBy_append_right hr' f).symm

end Fields

theorem Pads.ofText?_eq {s t : String} (h : Pads s.toList t.toList) :
    Version.ofText? t = Version.ofText? s := by
  rw [Version.ofText?, Version.ofText?, h.trimBy_eq]

section Quoted

/-- Nothing is cut off before the text, so that what is to be cut off must not follow. -/
theorem dropWhile_pads (hl : ∀ c ∈ l, p c = false) (hr : ∀ c ∈ r, p c = false)
    (hs : ∀ c, s.head? = some c → p c → l = []) :
    (l ++ s ++ r).dropWhile p = l ++ s.dropWhile p ++ r := by
  cases l with
  | nil =>
    have hn : r.dropWhile p = r := by
      cases r with
      | nil => rfl
      | cons c r => rw [List.dropWhile_cons, hr c List.mem_cons_self, if_neg Bool.false_ne_true]
    rw [List.nil_append, List.nil_append, List.dropWhile_append, hn]
    split
    · next h => rw [List.isEmpty_iff.mp h, List.nil_append]
    · rfl
  | cons c l =>
    have hn : s.dropWhile p = s := by
      cases s with
      | nil => rfl
      | cons d s =>
        have hd : ¬ p d := fun hd => List.cons_ne_nil c l (hs d rfl hd)
        rw [List.dropWhile_cons, if_neg hd]
    rw [hn, List.cons_append, List.cons_append, List.dropWhile_cons, hl c List.mem_cons_self,
      if_neg Bool.false_ne_true]

theorem getLast?_of_dropWhile {c : Char} (h : (s.dropWhile p).getLast? = some c) :
    s.getLast? = some c := by
  obtain ⟨u, hu⟩ := List.dropWhile_suffix (l := s) p
  rw [← hu, List.getLast?_append, h]
  rfl

theorem trimBy_pads (hl : ∀ c ∈ l, p c = false) (hr : ∀ c ∈ r, p c = false)
    (hs : ∀ c, s.head? = some c → p c → l = []) (hs' : ∀ c, s.getLast? = some c → p c → r = []) :
    trimBy p (l ++ s ++ r) = l ++ trimBy p s ++ r := by
  have hlr : ∀ c ∈ l.reverse, p c = false := fun c hc => hl c (List.mem_reverse.mp hc)
  have hrr : ∀ c ∈ r.reverse, p c = false := fun c hc => hr c (List.mem_reverse.mp hc)
  have hsr : ∀ c, (s.dropWhile p).reverse.head? = some c → p c → r.reverse = [] := by
    intro c hc hp
    rw [List.head?_reverse] at hc
    rw [hs' c (getLast?_of_dropWhile hc) hp, List.reverse_nil]
  unfold trimBy
  rw [dropWhile_pads hl hr hs, List.reverse_append, List.reverse_append, ← List.append_assoc,
    dropWhile_pads hrr hlr hsr]
  simp

/-- Blanks stand before and after the text, but not where it has a quote. -/
def PadsUnquoted (s t : List Char) : Prop :=
  ∃ l r, (∀ c ∈ l, isBlank c) ∧ (∀ c ∈ r, isBlank c) ∧ t = l ++ s ++ r ∧
    (s.head? = some '"' → l = []) ∧ (s.getLast? = some '"' → r = [])

theorem PadsUnquoted.pads_trimBy (h : PadsUnquoted s t) :
    Pads (trimBy (· == '"') s) (trimBy (· == '"') t) := by
  obtain ⟨l, r, hl, hr, rfl, hs, hs'⟩ := h
  have hq : ∀ c, isBlank c → (c == '"') = false := by
    intro c hc
    exact beq_eq_false_iff_ne.mpr (isBlank_ne (by decide) hc)
  refine ⟨l, r, hl, hr, trimBy_pads (fun c hc => hq c (hl c hc)) (fun c hc => hq c (hr c hc)) ?_ ?_⟩
  · intro c hc hp
    exact hs (beq_iff_eq.mp hp ▸ hc)
  · intro c hc hp
    exact hs' (beq_iff_eq.mp hp ▸ hc)

end Quoted

theorem Pads.eq_of_ends (h : Pads s t) (hh : t.head?.map isBlank = some false)
    (hl : t.getLast?.map isBlank = some false) : s = t := by
  obtain ⟨l, r, hlb, hrb, rfl⟩ := h
  have hln : l = [] := by
    cases l with
    | nil => rfl
    | cons c l =>
      have hc : isBlank c = false := Option.some.inj hh
      rw [hlb c List.mem_cons_self] at hc
      cases hc
  have hrn : r = [] := by
    cases hr : r.getLast? with
    | none => exact List.getLast?_eq_none_iff.mp hr
    | some c =>
      rw [List.getLast?_append, hr] at hl
      have hc : isBlank c = false := Option.some.inj hl
      rw [hrb c (List.mem_of_getLast? hr)] at hc
      cases hc
  rw [hln, hrn, List.nil_append, List.append_nil]

theorem head?_trimBy (h : trimBy p s ≠ []) : (trimBy p s).head?.map p = some false := by
  have hs : trimBy p s <+: s.dropWhile p := by
    rw [← List.reverse_suffix, trimBy, List.reverse_reverse]
    exact List.dropWhile_suffix p
  obtain ⟨c, t, ht⟩ := List.exists_cons_of_ne_nil h
  obtain ⟨u, hu⟩ := hs
  have hc := List.head?_dropWhile_not p s
  rw [← hu, ht] at hc
  rw [ht]
  exact congrArg some hc

theorem getLast?_trimBy (h : trimBy p s ≠ []) : (trimBy p s).getLast?.map p = some false := by
  have hc := List.head?_dropWhile_not p (s.dropWhile p).reverse
  rw [trimBy, List.getLast?_reverse]
  cases hd : (s.dropWhile p).reverse.dropWhile p with
  | nil => exact absurd (congrArg List.reverse hd) h
  | cons c t =>
    rw [hd] at hc
    exact congrArg some hc

theorem Pads.eq_trim {s raw : String} (hr : trim raw ≠ "")
    (h : Pads s.toList (trim raw).toList) : s = trim raw := by
  have ht : trimBy isBlank raw.toList ≠ [] := fun ht => hr (congrArg String.ofList ht)
  apply String.toList_injective
  rw [trim, String.toList_ofList] at h ⊢
  exact h.eq_of_ends (head?_trimBy ht) (getLast?_trimBy ht)

end LoadTiers.Text
