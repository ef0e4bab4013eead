/-! # Separated fields

A text as the list of its fields between separators. Main statements: a text is put together from
its fields, and the fields of a text that was put together from fields without the separator are
those fields.
-/

namespace LoadTiers.Text

/-- Cuts at each separator. There is one field more than there are separators. -/
def fields (sep : Char) : List Char → List (List Char)
  | [] => [[]]
  | c :: cs =>
    if c = sep then [] :: fields sep cs
    else match fields sep cs with
      | [] => [[c]]
      | f :: fs => (c :: f) :: fs

def splitOn (sep : Char) (s : String) : List String :=
  (fields sep s.toList).map .ofList

theorem fields_ne_nil (sep : Char) (s : List Char) : fields sep s ≠ [] := by
  cases s with
  | nil => simp [fields]
  | cons c cs =>
    unfold fields
    split
    · simp
    · split <;> simp

theorem fields_of_not_mem {sep : Char} {s : List Char} (h : sep ∉ s) : fields sep s = [s] := by
  induction s with
  | nil => rfl
  | cons c cs ih =>
    rw [List.mem_cons, not_or] at h
    rw [fields, if_neg (Ne.symm h.1), ih h.2]

theorem fields_append {sep : Char} {s : List Char} (h : sep ∉ s) (t : List Char) :
    fields sep (s ++ sep :: t) = s :: fields sep t := by
  induction s with
  | nil => simp [fields]
  | cons c cs ih =>
    rw [List.mem_cons, not_or] at h
    rw [List.cons_append, fields, if_neg (Ne.symm h.1), ih h.2]

/-- Puts fields together with one separator between neighbours. -/
def joinBy (sep : Char) : List (List Char) → List Char
  | [] => []
  | [f] => f
  | f :: fs => f ++ sep :: joinBy sep fs

theorem fields_joinBy {sep : Char} {fs : List (List Char)} (hn : fs ≠ [])
    (h : ∀ f ∈ fs, sep ∉ f) : fields sep (joinBy sep fs) = fs := by
  induction fs with
  | nil => exact absurd rfl hn
  | cons f fs ih =>
    cases fs with
    | nil => exact fields_of_not_mem (h f (by simp))
    | cons g gs =>
      rw [joinBy, fields_append (h f (by simp)), ih (by simp) fun x hx => h x (by simp [hx])]
      simp

theorem joinBy_cons {sep : Char} {f : List Char} {fs : List (List Char)} (hn : fs ≠ []) :
    joinBy sep (f :: fs) = f ++ sep :: joinBy sep fs := by
  cases fs with
  | nil => exact absurd rfl hn
  | cons g gs => rfl

theorem joinBy_fields (sep : Char) (s : List Char) : joinBy sep (fields sep s) = s := by
  induction s with
  | nil => rfl
  | cons c cs ih =>
    unfold fields
    split
    · next hc => rw [joinBy_cons (fields_ne_nil sep cs), ih, hc, List.nil_append]
    · split
      · next he => exact absurd he (fields_ne_nil sep cs)
      · next f fs he =>
        rw [he] at ih
        cases fs with
        | nil => exact congrArg (c :: ·) ih
        | cons g gs => exact congrArg (c :: ·) ih

theorem fields_concat {sep : Char} {f : List Char} (h : sep ∉ f) (s : List Char) :
    fields sep (s ++ sep :: f) = fields sep s ++ [f] := by
  induction s with
  | nil => simp [fields, fields_of_not_mem h]
  | cons c cs ih =>
    rw [List.cons_append, fields, fields, ih]
    split
    · rfl
    · cases hf : fields sep cs with
      | nil => exact absurd hf (fields_ne_nil sep cs)
      | cons g gs => rfl

end LoadTiers.Text
