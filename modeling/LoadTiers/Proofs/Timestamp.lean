import LoadTiers.Timestamp.Text
import Mathlib.Algebra.Group.Nat.Defs

/-! # Reading back points in time

A written point in time is read as itself. Each of its numbers is padded to a width that the reader
does not exceed, and followed by a mark that is no digit.
-/

namespace LoadTiers.Timestamp

open Text

variable {w n : Nat} {c : Char} {ds rest : List Char}

theorem isDigit_of_mem_padded (h : c ∈ padded w n) : c.isDigit := by
  rcases List.mem_append.mp h with h | h
  · rw [List.eq_of_mem_replicate h]
    rfl
  · exact Nat.isDigit_of_mem_toDigits (by omega) (by omega) h

theorem padded_ne_nil (w n : Nat) : padded w n ≠ [] :=
  List.append_ne_nil_of_right_ne_nil _ Nat.toDigits_ne_nil

theorem length_padded (hw : 0 < w) (h : n < 10 ^ w) : (padded w n).length = w := by
  have := (Nat.length_toDigits_le_iff (by omega) hw).mpr h
  simp only [padded, List.length_append, List.length_replicate]
  omega

theorem ofDigitChars_padded (w n : Nat) : Nat.ofDigitChars 10 (padded w n) 0 = n := by
  rw [padded, Nat.ofDigitChars_append, Nat.ofDigitChars_replicate_zero, Nat.mul_zero,
    Nat.ofDigitChars_toDigits (by omega) (by omega)]

theorem number?_append (hd : ∀ d ∈ ds, d.isDigit) (hne : ds ≠ []) (hw : ds.length ≤ w)
    (hc : c.isDigit = false) :
    number? w (ds ++ c :: rest) = some (Nat.ofDigitChars 10 ds 0, c :: rest) := by
  have ht : ((ds ++ c :: rest).take w).takeWhile Char.isDigit = ds := by
    rw [List.take_append, List.take_of_length_le hw, List.takeWhile_append_of_pos hd]
    cases w - ds.length <;> simp [hc]
  simp [number?, ht, hne]

theorem number?_padded (hw : 0 < w) (h : n < 10 ^ w) (hc : c.isDigit = false) :
    number? w (padded w n ++ c :: rest) = some (n, c :: rest) := by
  rw [number?_append (fun _ => isDigit_of_mem_padded) (padded_ne_nil w n)
    (Nat.le_of_eq (length_padded hw h)) hc, ofDigitChars_padded]

theorem dropWhile_isBlank_digits (hd : ∀ d ∈ ds, d.isDigit) (hne : ds ≠ []) :
    (ds ++ rest).dropWhile isBlank = ds ++ rest := by
  cases ds with
  | nil => exact absurd rfl hne
  | cons d ds => simp [isBlank_eq_false_of_isDigit (hd d (by simp))]

theorem dropWhile_isBlank_padded : (padded w n ++ rest).dropWhile isBlank = padded w n ++ rest :=
  dropWhile_isBlank_digits (fun _ => isDigit_of_mem_padded) (padded_ne_nil w n)

theorem field?_padded (hw : 0 < w) (h : n < 10 ^ w) (hc : c.isDigit = false) :
    field? w (padded w n ++ c :: rest) = some (n, c :: rest) := by
  rw [field?, dropWhile_isBlank_padded, number?_padded hw h hc]

theorem mark?_cons (h : isBlank c = false) : mark? c (c :: rest) = some rest := by
  simp [mark?, h]

theorem year?_digits (hd : ∀ d ∈ ds, d.isDigit) (hne : ds ≠ []) :
    year? (ds ++ rest) = (number? 4 (ds ++ rest)).map fun (n, s) => ((n : Int), s) := by
  obtain ⟨d, ds, rfl⟩ := List.exists_cons_of_ne_nil hne
  have hdigit : d.isDigit := hd d (by simp)
  unfold year?
  rw [dropWhile_isBlank_digits hd hne]
  split
  · next h => cases h; exact absurd hdigit (by decide)
  · next h => cases h; exact absurd hdigit (by decide)
  · rfl

theorem number?_year (hc : c.isDigit = false) :
    number? (padded w n ++ c :: rest).length (padded w n ++ c :: rest) = some (n, c :: rest) := by
  rw [number?_append (fun _ => isDigit_of_mem_padded) (padded_ne_nil w n) (by simp) hc,
    ofDigitChars_padded]

theorem year?_minus (s : List Char) :
    year? ('-' :: s) = (number? s.length s).map fun (n, s) => (-(n : Int), s) := rfl

theorem year?_plus (s : List Char) :
    year? ('+' :: s) = (number? s.length s).map fun (n, s) => ((n : Int), s) := rfl

theorem year?_yearText (year : Int) :
    year? (yearText year ++ '-' :: rest) = some (year, '-' :: rest) := by
  unfold yearText
  split
  · next h =>
    rw [year?_digits (fun _ => isDigit_of_mem_padded) (padded_ne_nil 4 _),
      number?_padded (by omega) (by omega) rfl]
    simp only [Option.map_some, Int.toNat_of_nonneg h.1]
  · split
    · next h =>
      rw [List.cons_append, year?_minus, number?_year rfl]
      simp only [Option.map_some, Option.some.injEq, Prod.mk.injEq, and_true]
      omega
    · next h =>
      rw [List.cons_append, year?_plus, number?_year rfl]
      simp only [Option.map_some, Option.some.injEq, Prod.mk.injEq, and_true]
      omega

/-- A fraction in `w` digits is read as that many nanoseconds times a power of ten. -/
theorem fraction?_padded (hw : 0 < w ∧ w ≤ 9) (h : n < 10 ^ w) :
    fraction? ('.' :: padded w n ++ ['Z']) = some (n * 10 ^ (9 - w), ['Z']) := by
  have hl : (padded w n).length = w := length_padded hw.1 h
  have hn : number? 9 (padded w n ++ ['Z']) = some (n, ['Z']) := by
    rw [number?_append (fun _ => isDigit_of_mem_padded) (padded_ne_nil w n) (by omega) (by decide),
      ofDigitChars_padded]
  simp [fraction?, hn, hl]

theorem fraction?_fractionText (h : n < 1000000000) :
    fraction? (fractionText n ++ ['Z']) = some (n, ['Z']) := by
  unfold fractionText
  split
  · next h0 => rw [h0]; rfl
  · split
    · rw [fraction?_padded (by omega) (by omega)]
      simp only [Option.some.injEq, Prod.mk.injEq, and_true]
      omega
    · split
      · rw [fraction?_padded (by omega) (by omega)]
        simp only [Option.some.injEq, Prod.mk.injEq, and_true]
        omega
      · rw [fraction?_padded (by omega) (by omega), Nat.sub_self, Nat.pow_zero, Nat.mul_one]

theorem daysInMonth_le (year : Int) (month : Nat) : daysInMonth year month ≤ 31 := by
  unfold daysInMonth
  grind

theorem fractionText_append_cons (n : Nat) :
    ∃ c rest, fractionText n ++ ['Z'] = c :: rest ∧ c.isDigit = false := by
  unfold fractionText
  split
  · exact ⟨'Z', [], rfl, rfl⟩
  · split
    · exact ⟨'.', _, rfl, rfl⟩
    · split <;> exact ⟨'.', _, rfl, rfl⟩

theorem field?_append_fractionText (hw : 0 < w) (h : n < 10 ^ w) (m : Nat) :
    field? w (padded w n ++ (fractionText m ++ ['Z'])) = some (n, fractionText m ++ ['Z']) := by
  obtain ⟨c, rest, heq, hc⟩ := fractionText_append_cons m
  rw [heq, field?_padded hw h hc]

theorem ofText?_text (t : Timestamp) : ofText? (t.text "Z") = some t := by
  have hvalid := t.valid
  obtain ⟨-, ⟨-, hmonth⟩, ⟨-, hday⟩, hhour, hminute, hsecond, hnanos⟩ := hvalid
  have hday := Nat.le_trans hday (daysInMonth_le _ _)
  simp only [text, List.append_assoc, List.cons_append]
  unfold ofText?
  rw [String.toList_ofList]
  -- the fields and marks in their order, each read off the front of what is left
  refine Option.bind_eq_some_iff.mpr ⟨_, year?_yearText _, ?_⟩
  refine Option.bind_eq_some_iff.mpr ⟨_, mark?_cons rfl, ?_⟩
  refine Option.bind_eq_some_iff.mpr ⟨_, field?_padded (by omega) (by omega) rfl, ?_⟩
  refine Option.bind_eq_some_iff.mpr ⟨_, mark?_cons rfl, ?_⟩
  refine Option.bind_eq_some_iff.mpr ⟨_, field?_padded (by omega) (by omega) rfl, ?_⟩
  refine Option.bind_eq_some_iff.mpr ⟨_, rfl, ?_⟩
  refine Option.bind_eq_some_iff.mpr ⟨_, field?_padded (by omega) (by omega) rfl, ?_⟩
  refine Option.bind_eq_some_iff.mpr ⟨_, mark?_cons rfl, ?_⟩
  refine Option.bind_eq_some_iff.mpr ⟨_, field?_padded (by omega) (by omega) rfl, ?_⟩
  refine Option.bind_eq_some_iff.mpr ⟨_, mark?_cons rfl, ?_⟩
  refine Option.bind_eq_some_iff.mpr
    ⟨_, field?_append_fractionText (by omega) (by omega) _, ?_⟩
  refine Option.bind_eq_some_iff.mpr ⟨_, fraction?_fractionText hnanos, ?_⟩
  refine Option.bind_eq_some_iff.mpr ⟨(0, []), rfl, ?_⟩
  refine Option.bind_eq_some_iff.mpr ⟨(), rfl, ?_⟩
  refine Option.bind_eq_some_iff.mpr ⟨(), rfl, ?_⟩
  refine Option.bind_eq_some_iff.mpr ⟨(), if_pos t.valid, ?_⟩
  exact dif_pos t.valid

end LoadTiers.Timestamp
