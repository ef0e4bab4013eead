import Mathlib.Data.List.DropRight
import LoadTiers.Json.Pretty
import LoadTiers.Text.Numeral

/-! # A reader of JSON text

The reader knows whole numbers only. A text in quotes, a number and the words for the other values
are read as what was printed.
-/

namespace LoadTiers.Json

open Text

def skip (s : List Char) : List Char :=
  s.dropWhile fun c => c = ' ' || c = '\n' || c = '\r' || c = '\t'

def unescape? : Char → Option Char
  | '"' => some '"'
  | '\\' => some '\\'
  | '/' => some '/'
  | 'n' => some '\n'
  | 'r' => some '\r'
  | 't' => some '\t'
  | 'b' => some '\x08'
  | 'f' => some '\x0c'
  | _ => none

/-- The characters up to the quote that ends a text. -/
def chars? : List Char → Option (List Char × List Char)
  | [] => none
  | '"' :: s => some ([], s)
  | '\\' :: 'u' :: a :: b :: c :: d :: s => do
    let n ← numeral? 16 [a, b, c, d]
    if n.isValidChar then (chars? s).map fun (cs, s) => (.ofNat n :: cs, s) else none
  | '\\' :: e :: s => do
    let c ← unescape? e
    (chars? s).map fun (cs, s) => (c :: cs, s)
  | c :: s => if c.toNat < 0x20 then none else (chars? s).map fun (cs, s) => (c :: cs, s)

/-- A whole number, or one of the words that are values. -/
def scalar? (s : List Char) : Option (Json × List Char) :=
  match s with
  | 'n' :: 'u' :: 'l' :: 'l' :: s => some (null, s)
  | 't' :: 'r' :: 'u' :: 'e' :: s => some (bool true, s)
  | 'f' :: 'a' :: 'l' :: 's' :: 'e' :: s => some (bool false, s)
  | '-' :: s => (digitsValue? (s.takeWhile Char.isDigit)).map fun n =>
    (int (-n), s.dropWhile Char.isDigit)
  | s => (digitsValue? (s.takeWhile Char.isDigit)).map fun n => (int n, s.dropWhile Char.isDigit)

mutual

/-- A value, in which no more than `fuel` values may be nested or follow each other. -/
def value? (fuel : Nat) (s : List Char) : Option (Json × List Char) :=
  match fuel with
  | 0 => none
  | fuel + 1 =>
    match skip s with
    | '"' :: s => (chars? s).map fun (cs, s) => (str (.ofList cs), s)
    | '[' :: s =>
      match skip s with
      | ']' :: s => some (arr [], s)
      | s => do
        let (j, s) ← value? fuel s
        (items? fuel s).map fun (js, s) => (arr (j :: js), s)
    | '\x7b' :: s =>
      match skip s with
      | '\x7d' :: s => some (obj [], s)
      | s => do
        let (m, s) ← pair? fuel s
        (pairs? fuel s).map fun (ms, s) => (obj (m :: ms), s)
    | s => scalar? s

/-- The items after an item, and the end of the array. -/
def items? (fuel : Nat) (s : List Char) : Option (List Json × List Char) :=
  match fuel with
  | 0 => none
  | fuel + 1 =>
    match skip s with
    | ']' :: s => some ([], s)
    | ',' :: s => do
      let (j, s) ← value? fuel s
      (items? fuel s).map fun (js, s) => (j :: js, s)
    | _ => none

def pair? (fuel : Nat) (s : List Char) : Option ((String × Json) × List Char) :=
  match fuel with
  | 0 => none
  | fuel + 1 =>
    match skip s with
    | '"' :: s => do
      let (k, s) ← chars? s
      match skip s with
      | ':' :: s => (value? fuel s).map fun (j, s) => ((.ofList k, j), s)
      | _ => none
    | _ => none

def pairs? (fuel : Nat) (s : List Char) : Option (List (String × Json) × List Char) :=
  match fuel with
  | 0 => none
  | fuel + 1 =>
    match skip s with
    | '\x7d' :: s => some ([], s)
    | ',' :: s => do
      let (m, s) ← pair? fuel s
      (pairs? fuel s).map fun (ms, s) => (m :: ms, s)
    | _ => none

end

def ofText? (text : String) : Option Json := do
  let (j, s) ← value? (text.toList.length + 1) text.toList
  if skip s = [] then some j else none

theorem chars?_short {e c : Char} (h : unescape? e = some c) (s : List Char) :
    chars? ('\\' :: e :: s) = (chars? s).map fun (cs, s) => (c :: cs, s) := by
  have hu : e ≠ 'u' := by
    rintro rfl
    cases h
  rw [chars?.eq_def]
  split
  · next h' => cases h'
  · next h' => cases h'
  · next h' =>
    cases h'
    exact absurd rfl hu
  · next h' =>
    cases h'
    rw [h]
    rfl
  · next hne h' =>
    cases h'
    exact (hne e s rfl rfl).elim

theorem chars?_plain {c : Char} (hq : c ≠ '"') (hb : c ≠ '\\') (h : ¬ c.toNat < 0x20)
    (s : List Char) : chars? (c :: s) = (chars? s).map fun (cs, s) => (c :: cs, s) := by
  rw [chars?.eq_def]
  split
  · next h' => cases h'
  · next h' => cases h'; exact absurd rfl hq
  · next h' => cases h'; exact absurd rfl hb
  · next h' => cases h'; exact absurd rfl hb
  · next h' =>
    cases h'
    rw [if_neg h]

theorem chars?_hex {n : Nat} (h : n < 0x20) (s : List Char) :
    chars? ('\\' :: 'u' :: '0' :: '0' :: Nat.digitChar (n / 16) :: Nat.digitChar (n % 16) :: s) =
      (chars? s).map fun (cs, s) => (.ofNat n :: cs, s) := by
  have hn : ∀ n < 0x20, numeral? 16 ['0', '0', Nat.digitChar (n / 16), Nat.digitChar (n % 16)] =
      some n := by decide
  have hv : n.isValidChar := .inl (by omega)
  rw [chars?.eq_def]
  simp [hn n h, hv]

theorem chars?_escape (c : Char) (s : List Char) :
    chars? (escape c ++ s) = (chars? s).map fun (cs, s) => (c :: cs, s) := by
  unfold escape
  split
  case h_8 hq hb _ _ _ _ _ =>
    split
    · next h => exact (chars?_hex h s).trans (by rw [Char.ofNat_toNat])
    · next h => exact chars?_plain hq hb h s
  all_goals exact chars?_short rfl s

theorem chars?_flatMap_escape (cs rest : List Char) :
    chars? (cs.flatMap escape ++ '"' :: rest) = some (cs, rest) := by
  induction cs with
  | nil => rfl
  | cons c cs ih => rw [List.flatMap_cons, List.append_assoc, chars?_escape, ih, Option.map_some]

theorem toList_quote (s : String) (rest : List Char) :
    (quote s).toList ++ rest = '"' :: (s.toList.flatMap escape ++ '"' :: rest) := by
  simp [quote]

def EndsNumber (rest : List Char) : Prop := ∀ c ∈ rest.head?, c.isDigit = false

theorem takeWhile_toDigits (n : Nat) {rest : List Char} (h : EndsNumber rest) :
    (Nat.toDigits 10 n ++ rest).takeWhile Char.isDigit = Nat.toDigits 10 n ∧
      (Nat.toDigits 10 n ++ rest).dropWhile Char.isDigit = rest := by
  have hd : ∀ c ∈ Nat.toDigits 10 n, c.isDigit = true := fun c hc =>
    Nat.isDigit_of_mem_toDigits (by omega) (by omega) hc
  rw [List.takeWhile_append_of_pos hd, List.dropWhile_append_of_pos hd]
  cases rest with
  | nil => exact ⟨List.append_nil _, rfl⟩
  | cons c rest =>
    have hc : c.isDigit = false := h c rfl
    simp [hc]

theorem scalar?_digits {s : List Char} {c : Char} (hc : c.isDigit) :
    scalar? (c :: s) = (digitsValue? ((c :: s).takeWhile Char.isDigit)).map fun n =>
      (int n, (c :: s).dropWhile Char.isDigit) := by
  unfold scalar?
  split
  · next h => cases h; cases hc
  · next h => cases h; cases hc
  · next h => cases h; cases hc
  · next h => cases h; cases hc
  · rfl

theorem scalar?_minus (s : List Char) :
    scalar? ('-' :: s) = (digitsValue? (s.takeWhile Char.isDigit)).map fun n =>
      (int (-n), s.dropWhile Char.isDigit) := rfl

theorem toList_toString_ofNat (n : Nat) : (toString (Int.ofNat n)).toList = Nat.toDigits 10 n := by
  simp [toString, Int.repr]

theorem toList_toString_negSucc (n : Nat) :
    (toString (Int.negSucc n)).toList = '-' :: Nat.toDigits 10 (n + 1) := by
  simp [toString, Int.repr]

theorem exists_cons_toDigits (n : Nat) : ∃ c ds, Nat.toDigits 10 n = c :: ds ∧ c.isDigit := by
  obtain ⟨c, ds, hds⟩ := List.exists_cons_of_ne_nil (Nat.toDigits_ne_nil (b := 10) (n := n))
  refine ⟨c, ds, hds, Nat.isDigit_of_mem_toDigits (b := 10) (n := n) (by omega) (by omega) ?_⟩
  rw [hds]
  exact List.mem_cons_self

theorem exists_cons_toString_int (n : Int) :
    ∃ c s, (toString n).toList = c :: s ∧ (c = '-' ∨ c.isDigit) := by
  cases n with
  | ofNat n =>
    obtain ⟨c, ds, hds, hc⟩ := exists_cons_toDigits n
    exact ⟨c, ds, by rw [toList_toString_ofNat, hds], .inr hc⟩
  | negSucc n => exact ⟨'-', Nat.toDigits 10 (n + 1), toList_toString_negSucc n, .inl rfl⟩

theorem scalar?_int (n : Int) {rest : List Char} (h : EndsNumber rest) :
    scalar? ((toString n).toList ++ rest) = some (int n, rest) := by
  cases n with
  | ofNat n =>
    obtain ⟨c, ds, hds, hc⟩ := exists_cons_toDigits n
    obtain ⟨htake, hdrop⟩ := takeWhile_toDigits n h
    rw [toList_toString_ofNat, hds, List.cons_append, scalar?_digits hc, ← List.cons_append,
      ← hds, htake, hdrop, digitsValue?_toDigits]
    rfl
  | negSucc n =>
    obtain ⟨htake, hdrop⟩ := takeWhile_toDigits (n + 1) h
    rw [toList_toString_negSucc, List.cons_append, scalar?_minus, htake, hdrop,
      digitsValue?_toDigits]
    rfl

theorem skip_newline (level : Nat) (s : List Char) :
    skip ((newline level).toList ++ s) = skip s := by
  rw [skip, newline, String.toList_ofList, List.cons_append, List.dropWhile_cons_of_pos (by decide),
    List.dropWhile_append_of_pos]
  · rfl
  · intro c hc
    rw [List.eq_of_mem_replicate hc]
    decide

theorem skip_skip (s : List Char) : skip (skip s) = skip s := List.dropWhile_idempotent _ _

theorem value?_congr (fuel : Nat) {s t : List Char} (h : skip s = skip t) :
    value? fuel s = value? fuel t := by
  cases fuel with
  | zero => rfl
  | succ fuel => rw [value?, value?, h]

theorem pair?_congr (fuel : Nat) {s t : List Char} (h : skip s = skip t) :
    pair? fuel s = pair? fuel t := by
  cases fuel with
  | zero => rfl
  | succ fuel => rw [pair?, pair?, h]

theorem items?_congr (fuel : Nat) {s t : List Char} (h : skip s = skip t) :
    items? fuel s = items? fuel t := by
  cases fuel with
  | zero => rfl
  | succ fuel => rw [items?, items?, h]

theorem pairs?_congr (fuel : Nat) {s t : List Char} (h : skip s = skip t) :
    pairs? fuel s = pairs? fuel t := by
  cases fuel with
  | zero => rfl
  | succ fuel => rw [pairs?, pairs?, h]

theorem value?_quote (fuel : Nat) (s : String) (rest : List Char) :
    value? (fuel + 1) ((quote s).toList ++ rest) = some (str s, rest) := by
  rw [toList_quote, value?, skip, List.dropWhile_cons_of_neg (by decide)]
  simp only [chars?_flatMap_escape, Option.map_some, String.ofList_toList]

theorem value?_word (fuel : Nat) {c : Char} {s : List Char}
    (hb : skip (c :: s) = c :: s) (hq : c ≠ '"') (ha : c ≠ '[') (ho : c ≠ '\x7b') :
    value? (fuel + 1) (c :: s) = scalar? (c :: s) := by
  rw [value?, hb]
  split
  · next h => cases h; exact absurd rfl hq
  · next h => cases h; exact absurd rfl ha
  · next h => cases h; exact absurd rfl ho
  · rfl

theorem value?_int (fuel : Nat) (n : Int) {rest : List Char} (h : EndsNumber rest) :
    value? (fuel + 1) ((toString n).toList ++ rest) = some (int n, rest) := by
  rw [← scalar?_int n h]
  obtain ⟨c, s, hs, hc⟩ := exists_cons_toString_int n
  -- a number starts with no character that has a meaning of its own
  have hne (x : Char) (hminus : x ≠ '-') (hdigit : x.isDigit = false) : c ≠ x := by
    rintro rfl
    cases hc with
    | inl hc => exact hminus hc
    | inr hc => simp [hdigit] at hc
  have hb : skip (c :: (s ++ rest)) = c :: (s ++ rest) := by
    rw [skip, List.dropWhile_cons_of_neg]
    simp [hne ' ', hne '\n', hne '\r', hne '\t']
  rw [hs, List.cons_append, value?_word fuel hb (hne '"' (by decide) rfl) (hne '[' (by decide) rfl)
    (hne '\x7b' (by decide) rfl)]

section Steps

variable {fuel : Nat} {s s' rest : List Char} {j : Json} {js : List Json} {k : String}
  {m : String × Json} {ms : List (String × Json)}

theorem skip_ne_of_value? (h : value? fuel s = some (j, s')) (t : List Char) :
    skip s ≠ ']' :: t := by
  intro ht
  cases fuel with
  | zero => cases h
  | succ fuel =>
    rw [value?, ht] at h
    cases h

theorem skip_ne_of_pair? (h : pair? fuel s = some (m, s')) (t : List Char) :
    skip s ≠ '\x7d' :: t := by
  intro ht
  cases fuel with
  | zero => cases h
  | succ fuel =>
    rw [pair?, ht] at h
    cases h

theorem value?_array (hj : value? fuel s = some (j, s')) (hjs : items? fuel s' = some (js, rest)) :
    value? (fuel + 1) ('[' :: s) = some (arr (j :: js), rest) := by
  rw [value?, skip, List.dropWhile_cons_of_neg (by decide)]
  simp only
  split
  · next h => exact absurd h (skip_ne_of_value? hj _)
  · rw [value?_congr fuel (skip_skip s), hj, Option.bind_eq_bind, Option.bind_some, hjs,
      Option.map_some]

theorem value?_object (hm : pair? fuel s = some (m, s'))
    (hms : pairs? fuel s' = some (ms, rest)) :
    value? (fuel + 1) ('\x7b' :: s) = some (obj (m :: ms), rest) := by
  rw [value?, skip, List.dropWhile_cons_of_neg (by decide)]
  simp only
  split
  · next h => exact absurd h (skip_ne_of_pair? hm _)
  · rw [pair?_congr fuel (skip_skip s), hm, Option.bind_eq_bind, Option.bind_some, hms,
      Option.map_some]

theorem items?_cons (hj : value? fuel s = some (j, s')) (hjs : items? fuel s' = some (js, rest)) :
    items? (fuel + 1) (',' :: s) = some (j :: js, rest) := by
  rw [items?, skip, List.dropWhile_cons_of_neg (by decide)]
  simp only [hj, Option.bind_eq_bind, Option.bind_some, hjs, Option.map_some]

theorem pair?_quote (hj : value? fuel s = some (j, rest)) :
    pair? (fuel + 1) ((quote k).toList ++ ':' :: ' ' :: s) = some ((k, j), rest) := by
  have hskip : skip (' ' :: s) = skip s := List.dropWhile_cons_of_pos (by decide)
  have hb : value? fuel (' ' :: s) = some (j, rest) := (value?_congr fuel hskip).trans hj
  rw [toList_quote, pair?, skip, List.dropWhile_cons_of_neg (by decide)]
  simp only [chars?_flatMap_escape, Option.bind_eq_bind, Option.bind_some]
  rw [skip, List.dropWhile_cons_of_neg (by decide)]
  simp only [hb, Option.map_some, String.ofList_toList]

theorem pairs?_cons (hm : pair? fuel s = some (m, s'))
    (hms : pairs? fuel s' = some (ms, rest)) :
    pairs? (fuel + 1) (',' :: s) = some (m :: ms, rest) := by
  rw [pairs?, skip, List.dropWhile_cons_of_neg (by decide)]
  simp only [hm, Option.bind_eq_bind, Option.bind_some, hms, Option.map_some]

end Steps

end LoadTiers.Json
