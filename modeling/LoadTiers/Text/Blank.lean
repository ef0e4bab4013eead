/-! # Blank space

Which characters are white space, and how they are cut off the ends of a text.
-/

namespace LoadTiers.Text

/-- The characters with the Unicode property `White_Space`. -/
def isBlank (c : Char) : Bool :=
  let n := c.toNat
  (0x9 ≤ n && n ≤ 0xD) || n == 0x20 || n == 0x85 || n == 0xA0 || n == 0x1680 ||
    (0x2000 ≤ n && n ≤ 0x200A) || n == 0x2028 || n == 0x2029 || n == 0x202F || n == 0x205F ||
    n == 0x3000

theorem isBlank_eq_false_of_isDigit {c : Char} (h : c.isDigit) : isBlank c = false := by
  rw [Char.isDigit_iff_toNat] at h
  simp only [isBlank, Char.reduceToNat] at *
  grind

/-- Removes the characters that satisfy `p` from both ends. -/
def trimBy (p : Char → Bool) (s : List Char) : List Char :=
  ((s.dropWhile p).reverse.dropWhile p).reverse

theorem trimBy_eq_self {p : Char → Bool} {s : List Char} (h : ∀ c ∈ s, p c = false) :
    trimBy p s = s := by
  have hd : ∀ t : List Char, (∀ c ∈ t, p c = false) → t.dropWhile p = t := by
    rintro (_ | ⟨c, t⟩) h
    · rfl
    · simp [h c (by simp)]
  rw [trimBy, hd s h, hd s.reverse fun c hc => h c (List.mem_reverse.1 hc), List.reverse_reverse]

def trim (s : String) : String := .ofList (trimBy isBlank s.toList)

end LoadTiers.Text
