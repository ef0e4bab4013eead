import LoadTiers.Path

/-! # The directory of a file

A path that is a directory and a file name, with one slash between them, has that directory. Taken
relative to it, a path stands where the file name stood.
-/

namespace LoadTiers.Path

open Text

/-- A directory as it is usually written: its last step leads somewhere, or it is the dot. The empty
text stands for the root. -/
def IsPlain (d : String) : Prop :=
  d = "" ∨ d = "." ∨ ∀ step, (fields '/' d.toList).getLast? = some step → ¬ isIdle step

def IsName (f : String) : Prop := '/' ∉ f.toList ∧ ¬ isIdle f.toList

theorem join_of_isAbsolute {p q : String} (h : isAbsolute q) : join p q = q := by
  rw [join, if_pos (.inl h)]

theorem getLast?_fields_append {s t : List Char} (h : '/' ∉ s) :
    (fields '/' (s ++ '/' :: t)).getLast? = (fields '/' t).getLast? := by
  rw [fields_append h, List.getLast?_cons]
  cases ht : (fields '/' t).getLast? with
  | none => exact absurd (List.getLast?_eq_none_iff.mp ht) (fields_ne_nil '/' t)
  | some x => rfl

/-- What `start` leaves of a path ends with the same step, unless the path is the dot. -/
theorem start_spec {s : List Char} (h : s ≠ ['.']) :
    (start s).1 ++ (start s).2 = s ∧
      (fields '/' (start s).2).getLast? = (fields '/' s).getLast? := by
  have hroot : ∀ t, (fields '/' ('/' :: t)).getLast? = (fields '/' t).getLast? := fun t =>
    getLast?_fields_append (List.not_mem_nil (a := '/'))
  unfold start
  split
  · next t => exact ⟨rfl, (hroot t).symm⟩
  · exact absurd rfl h
  · next t =>
    have hdot : (fields '/' (['.'] ++ '/' :: t)).getLast? = (fields '/' t).getLast? :=
      getLast?_fields_append (by decide)
    exact ⟨rfl, (hroot t).trans hdot.symm⟩
  · exact ⟨rfl, rfl⟩

theorem start_of_ne {s : List Char} (hroot : ∀ t, s ≠ '/' :: t) (hdot : s ≠ ['.'])
    (hhere : ∀ t, s ≠ '.' :: '/' :: t) : start s = ([], s) := by
  unfold start
  split
  · next t => exact absurd rfl (hroot t)
  · exact absurd rfl hdot
  · next t => exact absurd rfl (hhere t)
  · rfl

theorem start_append {s : List Char} (hs : s ≠ []) (hdot : s ≠ ['.']) (f : List Char) :
    start (s ++ '/' :: f) = ((start s).1, (start s).2 ++ '/' :: f) := by
  by_cases hroot : ∃ t, s = '/' :: t
  · obtain ⟨t, rfl⟩ := hroot
    rfl
  by_cases hhere : ∃ t, s = '.' :: '/' :: t
  · obtain ⟨t, rfl⟩ := hhere
    rfl
  -- neither starts anywhere, and what is appended does not change that
  have hne := not_exists.mp hroot
  have hne' := not_exists.mp hhere
  rw [start_of_ne hne hdot hne', start_of_ne]
  case hroot =>
    intro t he
    cases s with
    | nil => exact hs rfl
    | cons c s => exact hne s (by rw [(List.cons.inj he).1])
  case hdot =>
    intro he
    cases s with
    | nil => exact hs rfl
    | cons c s => exact absurd (List.cons.inj he).2 (by simp)
  case hhere =>
    intro t he
    rcases s with - | ⟨c, - | ⟨c', s⟩⟩
    · exact hs rfl
    · exact hdot (by rw [(List.cons.inj he).1])
    · obtain ⟨rfl, ht⟩ := List.cons.inj he
      exact hne' s (by rw [(List.cons.inj ht).1])

theorem stepsBack_of_isName {f : String} (hf : IsName f) : stepsBack f.toList = [f.toList] := by
  rw [stepsBack, fields_of_not_mem hf.1, List.reverse_singleton, List.dropWhile_cons_of_neg hf.2]

theorem stepsBack_append {f : List Char} (hf : '/' ∉ f) (hi : ¬ isIdle f) (s : List Char) :
    stepsBack (s ++ '/' :: f) = f :: (fields '/' s).reverse := by
  rw [stepsBack, fields_concat hf, List.reverse_append, List.reverse_singleton,
    List.singleton_append, List.dropWhile_cons_of_neg hi]

theorem joinBy_dropWhile_fields {s : List Char}
    (h : ∀ step, (fields '/' s).getLast? = some step → ¬ isIdle step) :
    joinBy '/' ((fields '/' s).reverse.dropWhile isIdle).reverse = s := by
  have hkeep : (fields '/' s).reverse.dropWhile isIdle = (fields '/' s).reverse := by
    cases hr : (fields '/' s).reverse with
    | nil => rfl
    | cons step steps =>
      refine List.dropWhile_cons_of_neg (h step ?_)
      rw [List.getLast?_eq_head?_reverse, hr, List.head?_cons]
  rw [hkeep, List.reverse_reverse, joinBy_fields]

theorem parent?_of_isName {f : String} (hf : IsName f) : parent? f = some "" := by
  have hs : start f.toList = ([], f.toList) := by
    refine start_of_ne ?_ ?_ ?_
    · intro t h
      exact hf.1 (by rw [h]; exact List.mem_cons_self)
    · intro h
      exact hf.2 (by rw [h]; rfl)
    · intro t h
      exact hf.1 (by rw [h]; simp)
  simp only [parent?, hs, stepsBack_of_isName hf]
  rfl

theorem parent?_root {f : String} (hf : IsName f) : parent? ("" ++ "/" ++ f) = some "/" := by
  have hl : ("" ++ "/" ++ f).toList = '/' :: f.toList := by simp
  simp only [parent?, hl, start, stepsBack_of_isName hf]
  rfl

theorem parent?_here {f : String} (hf : IsName f) : parent? ("." ++ "/" ++ f) = some "." := by
  have hl : ("." ++ "/" ++ f).toList = '.' :: '/' :: f.toList := by simp
  have hb : stepsBack ('/' :: f.toList) = [f.toList, []] := stepsBack_append hf.1 hf.2 []
  simp only [parent?, hl, start, hb]
  rfl

theorem parent?_append {d f : String} (hf : IsName f)
    (hd : ∀ step, (fields '/' d.toList).getLast? = some step → ¬ isIdle step) :
    parent? (d ++ "/" ++ f) = some d := by
  have hne : d.toList ≠ [] := fun h => hd [] (by rw [h]; rfl) rfl
  have hdot : d.toList ≠ ['.'] := fun h => hd ['.'] (by rw [h]; rfl) rfl
  obtain ⟨hs, hlast⟩ := start_spec hdot
  have hl : (d ++ "/" ++ f).toList = d.toList ++ '/' :: f.toList := by simp
  have hk := joinBy_dropWhile_fields (s := (start d.toList).2) fun step h => hd step (hlast ▸ h)
  simp only [parent?, hl, start_append hne hdot, stepsBack_append hf.1 hf.2, hk, hs]
  rw [String.ofList_toList]

/-- Relative to the directory of a file, a path stands in the place of the name of the file. -/
theorem exists_parent?_join {d f : String} (hf : IsName f) (hd : IsPlain d) :
    ∃ p, parent? (d ++ "/" ++ f) = some p ∧
      ∀ s, isAbsolute s = false → join p s = d ++ "/" ++ s := by
  rcases hd with rfl | rfl | hd
  · refine ⟨"/", parent?_root hf, fun s hs => ?_⟩
    simp [join, hs]
  · refine ⟨".", parent?_here hf, fun s hs => ?_⟩
    simp [join, hs]
  · refine ⟨d, parent?_append hf hd, fun s hs => ?_⟩
    have hne : d ≠ "" := by
      rintro rfl
      exact hd [] rfl rfl
    have hslash : d.toList.getLast? ≠ some '/' := by
      intro h
      obtain ⟨s, hs⟩ := List.getLast?_eq_some_iff.mp h
      refine hd [] ?_ rfl
      rw [hs, fields_concat List.not_mem_nil, List.getLast?_concat]
    simp [join, hs, hne, hslash]

end LoadTiers.Path
