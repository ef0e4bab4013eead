import LoadTiers.Text.Blank
import LoadTiers.Text.Uppercase
import Mathlib.Data.List.Basic

/-! # Capitals

Capitals of ASCII come from one run of the table, and no blank is a capital form of anything else.
-/

namespace LoadTiers.Text

variable {c : Char} {s : String}

/-- The capital form of a character of ASCII. -/
def asciiCapital (c : Char) : Char :=
  if 0x61 ≤ c.toNat ∧ c.toNat ≤ 0x7A then .ofNat (c.toNat - 0x20) else c

theorem le_of_mem_caseExpansions : ∀ x ∈ caseExpansions, 0x80 ≤ x.1 := by
  decide +kernel

theorem le_of_mem_tail_caseRuns : ∀ run ∈ caseRuns.tail, 0x80 ≤ run.first := by
  decide +kernel

theorem capitals_of_lt (h : c.toNat < 0x80) : capitals c = [asciiCapital c] := by
  have hexp : caseExpansions.lookup c.toNat = none := by
    rw [List.lookup_eq_none_iff]
    intro x hx
    have hle := le_of_mem_caseExpansions x hx
    rw [bne_iff_ne]
    omega
  have htail : caseRuns.tail.find? (·.covers c.toNat) = none := by
    rw [List.find?_eq_none]
    intro run hr hc
    have hle := le_of_mem_tail_caseRuns run hr
    simp only [CaseRun.covers, Bool.and_eq_true, decide_eq_true_eq] at hc
    omega
  have hruns : caseRuns = ⟨0x61, 0x7A, 1, -32⟩ :: caseRuns.tail := rfl
  rw [capitals, hexp, hruns, List.find?_cons, htail, asciiCapital]
  by_cases hc : 0x61 ≤ c.toNat ∧ c.toNat ≤ 0x7A
  · have hoffset : ((c.toNat : Int) + -32).toNat = c.toNat - 0x20 := by omega
    simp [CaseRun.covers, hc, Nat.mod_one, hoffset]
  · have hcov : CaseRun.covers ⟨0x61, 0x7A, 1, -32⟩ c.toNat = false := by
      simpa [CaseRun.covers, Nat.mod_one] using hc
    rw [hcov, if_neg hc]

theorem uppercase_of_ascii (h : s.toList.all fun c => c.toNat < 0x80) :
    uppercase s = .ofList (s.toList.map asciiCapital) := by
  have hc : ∀ c ∈ s.toList, capitals c = [asciiCapital c] := fun c hc =>
    capitals_of_lt (of_decide_eq_true (List.all_eq_true.mp h c hc))
  rw [uppercase, List.flatMap_congr hc, List.map_eq_flatMap]

section Blanks

/-- The first and the last code points of spans that hold all blanks and no capitals. -/
def blankSpans : List (Nat × Nat) :=
  [(0x9, 0x20), (0x85, 0xA0), (0x1680, 0x1680), (0x2000, 0x205F), (0x3000, 0x3000)]

theorem exists_blankSpan (h : isBlank c) : ∃ x ∈ blankSpans, x.1 ≤ c.toNat ∧ c.toNat ≤ x.2 := by
  simp only [isBlank, Bool.or_eq_true, Bool.and_eq_true, decide_eq_true_eq, beq_iff_eq] at h
  simp only [blankSpans, List.mem_cons, List.not_mem_nil, or_false, exists_eq_or_imp,
    exists_eq_left]
  omega

theorem exists_blankSpan_of_ofNat {n : Nat} (h : isBlank (.ofNat n)) :
    ∃ x ∈ blankSpans, x.1 ≤ n ∧ n ≤ x.2 := by
  obtain ⟨x, hx, hle⟩ := exists_blankSpan h
  by_cases hv : n.isValidChar
  · rw [Char.ofNat, dif_pos hv] at hle
    exact ⟨x, hx, hle⟩
  · rw [Char.ofNat, dif_neg hv] at h
    exact absurd h (by decide)

theorem caseRuns_avoid_blanks : ∀ run ∈ caseRuns, ∀ x ∈ blankSpans,
    (x.2 : Int) < run.first + run.offset ∨ run.last + run.offset < (x.1 : Int) := by
  decide +kernel

theorem caseExpansions_avoid_blanks : ∀ x ∈ caseExpansions,
    x.2.head?.map (fun n => isBlank (.ofNat n)) = some false := by
  decide +kernel

/-- No blank is the capital form of something else. -/
theorem head?_capitals (hc : isBlank c = false) :
    (capitals c).head?.map isBlank = some false := by
  unfold capitals
  split
  · next ns h =>
    obtain ⟨l, r, hx, -⟩ := List.lookup_eq_some_iff.mp h
    have hm : (c.toNat, ns) ∈ caseExpansions := hx ▸ List.mem_append_right l List.mem_cons_self
    rw [List.head?_map, Option.map_map]
    exact caseExpansions_avoid_blanks _ hm
  · split
    · next run h =>
      have hr := caseRuns_avoid_blanks run (List.mem_of_find?_eq_some h)
      have hcov : run.covers c.toNat := by simpa using List.find?_some h
      simp only [CaseRun.covers, Bool.and_eq_true, decide_eq_true_eq] at hcov
      simp only [List.head?_cons, Option.map_some, Option.some.injEq]
      rw [Bool.eq_false_iff]
      intro hb
      obtain ⟨x, hx, hle⟩ := exists_blankSpan_of_ofNat hb
      have hpos : ∀ x ∈ blankSpans, 0 < x.1 := by decide
      have hn := hpos x hx
      have hout := hr x hx
      omega
    · exact congrArg some hc

theorem head?_uppercase (h : s.toList.head?.map isBlank = some false) :
    (uppercase s).toList.head?.map isBlank = some false := by
  obtain ⟨c, hs, hc⟩ := Option.map_eq_some_iff.mp h
  obtain ⟨cs, hcs⟩ := List.head?_eq_some_iff.mp hs
  rw [uppercase, String.toList_ofList, hcs, List.flatMap_cons]
  have hcap := head?_capitals hc
  cases hd : capitals c with
  | nil =>
    rw [hd] at hcap
    cases hcap
  | cons d ds =>
    rw [hd] at hcap
    exact hcap

end Blanks

end LoadTiers.Text
