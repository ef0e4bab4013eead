import LoadTiers.Proofs.Json.Reader

/-! # Reading printed JSON

A printed value is read as itself, as long as its numbers are whole. The proof has one lemma for
each form of a value; fuel and the text that follows are left open, so that they carry over from a
value to its parts.
-/

namespace LoadTiers.Json

mutual

def isWhole : Json → Bool
  | decimal .. => false
  | arr items => areWhole items
  | obj members => haveWhole members
  | _ => true

def areWhole : List Json → Bool
  | [] => true
  | j :: js => isWhole j && areWhole js

def haveWhole : List (String × Json) → Bool
  | [] => true
  | (_, j) :: ms => isWhole j && haveWhole ms

end

theorem toList_print_array (level : Nat) (j : Json) (js : List Json) (rest : List Char) :
    (print level (arr (j :: js))).toList ++ rest =
      '[' :: ((newline (level + 1)).toList ++ ((print (level + 1) j).toList ++
        ((printItems (level + 1) js).toList ++ ((newline level).toList ++ ']' :: rest)))) := by
  simp [print]

theorem toList_print_object (level : Nat) (k : String) (j : Json) (ms : List (String × Json))
    (rest : List Char) :
    (print level (obj ((k, j) :: ms))).toList ++ rest =
      '\x7b' :: ((newline (level + 1)).toList ++ ((quote k).toList ++ ':' :: ' ' ::
        ((print (level + 1) j).toList ++ ((printMembers (level + 1) ms).toList ++
          ((newline level).toList ++ '\x7d' :: rest))))) := by
  simp [print]

example : print 0 (obj [("a", arr [int 1, null])]) =
    "\x7b\n  \"a\": [\n    1,\n    null\n  ]\n\x7d" := by
  cbv

theorem toList_printItems_cons (level : Nat) (j : Json) (js : List Json) (rest : List Char) :
    (printItems level (j :: js)).toList ++ rest =
      ',' :: ((newline level).toList ++ ((print level j).toList ++
        ((printItems level js).toList ++ rest))) := by
  simp [printItems]

theorem toList_printMembers_cons (level : Nat) (k : String) (j : Json) (ms : List (String × Json))
    (rest : List Char) :
    (printMembers level ((k, j) :: ms)).toList ++ rest =
      ',' :: ((newline level).toList ++ ((quote k).toList ++ ':' :: ' ' ::
        ((print level j).toList ++ ((printMembers level ms).toList ++ rest)))) := by
  simp [printMembers]

section Readable

variable {j : Json} {js : List Json} {k : String} {ms : List (String × Json)}

theorem endsNumber_newline (level : Nat) (rest : List Char) :
    EndsNumber ((newline level).toList ++ rest) := by
  intro c hc
  rw [newline, String.toList_ofList] at hc
  cases hc
  decide

theorem endsNumber_printItems (level : Nat) (js : List Json) {rest : List Char}
    (h : EndsNumber rest) : EndsNumber ((printItems level js).toList ++ rest) := by
  cases js with
  | nil => simpa [printItems] using h
  | cons j js =>
    rw [toList_printItems_cons]
    rintro c ⟨⟩
    decide

theorem endsNumber_printMembers (level : Nat) (ms : List (String × Json)) {rest : List Char}
    (h : EndsNumber rest) : EndsNumber ((printMembers level ms).toList ++ rest) := by
  cases ms with
  | nil => simpa [printMembers] using h
  | cons m ms =>
    rw [toList_printMembers_cons]
    rintro c ⟨⟩
    decide

/-- A value that is read as itself wherever it is printed. -/
def Readable (j : Json) : Prop :=
  ∀ level fuel rest, (print level j).toList.length ≤ fuel → EndsNumber rest →
    value? fuel ((print level j).toList ++ rest) = some (j, rest)

def ReadableItems (js : List Json) : Prop :=
  ∀ level outer fuel rest, (printItems level js).toList.length < fuel →
    items? fuel ((printItems level js).toList ++ ((newline outer).toList ++ ']' :: rest)) =
      some (js, rest)

def ReadableMembers (ms : List (String × Json)) : Prop :=
  ∀ level outer fuel rest, (printMembers level ms).toList.length < fuel →
    pairs? fuel ((printMembers level ms).toList ++ ((newline outer).toList ++ '\x7d' :: rest)) =
      some (ms, rest)

theorem toList_print_null (level : Nat) : (print level null).toList = ['n', 'u', 'l', 'l'] := by
  simp [print]

theorem toList_print_bool (level : Nat) (b : Bool) : (print level (bool b)).toList =
    if b then ['t', 'r', 'u', 'e'] else ['f', 'a', 'l', 's', 'e'] := by
  cases b <;> simp [print, toString]

theorem toList_print_array_nil (level : Nat) : (print level (arr [])).toList = ['[', ']'] := by
  simp [print]

theorem toList_print_object_nil (level : Nat) :
    (print level (obj [])).toList = ['\x7b', '\x7d'] := by
  simp [print]

theorem readable_null : Readable null := by
  intro level fuel rest hfuel _
  rw [toList_print_null] at hfuel ⊢
  cases fuel with
  | zero => cases hfuel
  | succ fuel => rfl

theorem readable_bool (b : Bool) : Readable (bool b) := by
  intro level fuel rest hfuel _
  rw [toList_print_bool] at hfuel ⊢
  cases fuel with
  | zero => cases b <;> cases hfuel
  | succ fuel => cases b <;> rfl

theorem readable_int (n : Int) : Readable (int n) := by
  intro level fuel rest hfuel hrest
  obtain ⟨c, s, hs, -⟩ := exists_cons_toString_int n
  cases fuel with
  | zero =>
    rw [print, hs] at hfuel
    cases hfuel
  | succ fuel =>
    rw [print]
    exact value?_int fuel n hrest

theorem readable_str (s : String) : Readable (str s) := by
  intro level fuel rest hfuel _
  cases fuel with
  | zero => simp [print, quote] at hfuel
  | succ fuel =>
    rw [print]
    exact value?_quote fuel s rest

theorem readable_array_nil : Readable (arr []) := by
  intro level fuel rest hfuel _
  rw [toList_print_array_nil] at hfuel ⊢
  cases fuel with
  | zero => cases hfuel
  | succ fuel => rfl

theorem readable_array_cons (hj : Readable j) (hjs : ReadableItems js) :
    Readable (arr (j :: js)) := by
  intro level fuel rest hfuel _
  have hlength := congrArg List.length (toList_print_array level j js [])
  simp only [List.append_nil, List.length_append, List.length_cons] at hlength
  obtain ⟨fuel, rfl⟩ : ∃ n, fuel = n + 1 := ⟨fuel - 1, by omega⟩
  rw [toList_print_array]
  refine value?_array ?_ (hjs (level + 1) level fuel rest (by omega))
  rw [value?_congr _ (skip_newline _ _)]
  exact hj _ _ _ (by omega) (endsNumber_printItems _ _ (endsNumber_newline _ _))

theorem readable_object_nil : Readable (obj []) := by
  intro level fuel rest hfuel _
  rw [toList_print_object_nil] at hfuel ⊢
  cases fuel with
  | zero => cases hfuel
  | succ fuel => rfl

theorem readable_object_cons (hj : Readable j) (hms : ReadableMembers ms) :
    Readable (obj ((k, j) :: ms)) := by
  intro level fuel rest hfuel _
  have hlength := congrArg List.length (toList_print_object level k j ms [])
  simp only [List.append_nil, List.length_append, List.length_cons] at hlength
  obtain ⟨fuel, rfl⟩ : ∃ n, fuel = n + 1 + 1 := ⟨fuel - 2, by omega⟩
  rw [toList_print_object]
  refine value?_object ?_ (hms (level + 1) level (fuel + 1) rest (by omega))
  rw [pair?_congr _ (skip_newline _ _)]
  refine pair?_quote (hj _ _ _ (by omega) ?_)
  exact endsNumber_printMembers _ _ (endsNumber_newline _ _)

theorem readableItems_nil : ReadableItems [] := by
  intro level outer fuel rest hfuel
  cases fuel with
  | zero => cases hfuel
  | succ fuel => exact (items?_congr _ (skip_newline outer _)).trans rfl

theorem readableItems_cons (hj : Readable j) (hjs : ReadableItems js) :
    ReadableItems (j :: js) := by
  intro level outer fuel rest hfuel
  have hlength := congrArg List.length (toList_printItems_cons level j js [])
  simp only [List.append_nil, List.length_append, List.length_cons] at hlength
  obtain ⟨fuel, rfl⟩ : ∃ n, fuel = n + 1 := ⟨fuel - 1, by omega⟩
  rw [toList_printItems_cons]
  refine items?_cons ?_ (hjs level outer fuel rest (by omega))
  rw [value?_congr _ (skip_newline _ _)]
  exact hj _ _ _ (by omega) (endsNumber_printItems _ _ (endsNumber_newline _ _))

theorem readableMembers_nil : ReadableMembers [] := by
  intro level outer fuel rest hfuel
  cases fuel with
  | zero => cases hfuel
  | succ fuel => exact (pairs?_congr _ (skip_newline outer _)).trans rfl

theorem readableMembers_cons (hj : Readable j) (hms : ReadableMembers ms) :
    ReadableMembers ((k, j) :: ms) := by
  intro level outer fuel rest hfuel
  have hlength := congrArg List.length (toList_printMembers_cons level k j ms [])
  simp only [List.append_nil, List.length_append, List.length_cons] at hlength
  obtain ⟨fuel, rfl⟩ : ∃ n, fuel = n + 1 + 1 := ⟨fuel - 2, by omega⟩
  rw [toList_printMembers_cons]
  refine pairs?_cons ?_ (hms level outer (fuel + 1) rest (by omega))
  rw [pair?_congr _ (skip_newline _ _)]
  refine pair?_quote (hj _ _ _ (by omega) ?_)
  exact endsNumber_printMembers _ _ (endsNumber_newline _ _)

mutual

theorem readable_of_isWhole : ∀ j, isWhole j → Readable j
  | null, _ => readable_null
  | bool b, _ => readable_bool b
  | int n, _ => readable_int n
  | str s, _ => readable_str s
  | arr [], _ => readable_array_nil
  | arr (j :: js), h => by
    rw [isWhole, areWhole, Bool.and_eq_true] at h
    exact readable_array_cons (readable_of_isWhole j h.1) (readableItems_of_areWhole js h.2)
  | obj [], _ => readable_object_nil
  | obj ((k, j) :: ms), h => by
    rw [isWhole, haveWhole, Bool.and_eq_true] at h
    exact readable_object_cons (readable_of_isWhole j h.1) (readableMembers_of_haveWhole ms h.2)

theorem readableItems_of_areWhole : ∀ js, areWhole js → ReadableItems js
  | [], _ => readableItems_nil
  | j :: js, h => by
    rw [areWhole, Bool.and_eq_true] at h
    exact readableItems_cons (readable_of_isWhole j h.1) (readableItems_of_areWhole js h.2)

theorem readableMembers_of_haveWhole : ∀ ms, haveWhole ms → ReadableMembers ms
  | [], _ => readableMembers_nil
  | (k, j) :: ms, h => by
    rw [haveWhole, Bool.and_eq_true] at h
    exact readableMembers_cons (readable_of_isWhole j h.1) (readableMembers_of_haveWhole ms h.2)

end

/-- A printed value is read as itself. -/
theorem ofText?_pretty {j : Json} (h : isWhole j) : ofText? j.pretty = some j := by
  have hj : value? (j.pretty.toList.length + 1) j.pretty.toList = some (j, []) := by
    rw [← List.append_nil j.pretty.toList]
    refine readable_of_isWhole j h 0 _ [] ?_ nofun
    rw [List.append_nil]
    exact Nat.le_succ _
  rw [ofText?, hj]
  rfl

end Readable

theorem areWhole_iff (js : List Json) : areWhole js ↔ ∀ j ∈ js, isWhole j := by
  induction js with
  | nil => simp [areWhole]
  | cons j js ih => simp [areWhole, ih]

theorem haveWhole_iff (ms : List (String × Json)) : haveWhole ms ↔ ∀ m ∈ ms, isWhole m.2 := by
  induction ms with
  | nil => simp [haveWhole]
  | cons m ms ih => simp [haveWhole, ih]

@[simp] theorem isWhole_strings (l : List String) : isWhole (strings l) := by
  simp [strings, isWhole, areWhole_iff]

@[simp] theorem isWhole_optional (s : Option String) : isWhole (optional s) := by
  cases s <;> rfl

@[simp] theorem haveWhole_optionalMember (name : String) (s : Option String) :
    haveWhole (optionalMember name s) := by
  cases s <;> rfl

end LoadTiers.Json
