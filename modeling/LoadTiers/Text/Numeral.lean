/-! # Numerals

Reading a number from its digits, and a word of 32 bits from decimal digits.
-/

namespace LoadTiers.Text

/-- The value of an ASCII digit or letter, if it is a digit of the base. -/
def digit? (base : Nat) (c : Char) : Option Nat :=
  let n :=
    if c.isDigit then some (c.toNat - '0'.toNat)
    else if 'a' ≤ c ∧ c ≤ 'z' then some (c.toNat - 'a'.toNat + 10)
    else if 'A' ≤ c ∧ c ≤ 'Z' then some (c.toNat - 'A'.toNat + 10)
    else none
  n.filter (· < base)

/-- The value of a run of digits of the base, the first being the most significant. -/
def numeral? (base : Nat) (s : List Char) : Option Nat := do
  guard (s ≠ [])
  return (← s.mapM (digit? base)).foldl (fun n d => base * n + d) 0

def digitsValue? (s : List Char) : Option Nat :=
  if s ≠ [] ∧ s.all Char.isDigit then some (Nat.ofDigitChars 10 s 0) else none

/-- One or more ASCII digits after at most one plus sign, of a value below `2 ^ 32`. -/
def word? (s : List Char) : Option UInt32 := do
  let n ← digitsValue? (match s with
    | '+' :: ds => ds
    | ds => ds)
  if h : n < UInt32.size then some (.ofNatLT n h) else none

theorem digitsValue?_toDigits (n : Nat) : digitsValue? (Nat.toDigits 10 n) = some n := by
  have h : (Nat.toDigits 10 n).all Char.isDigit :=
    List.all_eq_true.2 fun c hc => Nat.isDigit_of_mem_toDigits (by omega) (by omega) hc
  rw [digitsValue?, if_pos ⟨Nat.toDigits_ne_nil, h⟩,
    Nat.ofDigitChars_toDigits (by omega) (by omega)]

theorem word?_toDigits (n : UInt32) : word? (Nat.toDigits 10 n.toNat) = some n := by
  unfold word?
  split
  · next ds h =>
    have hplus : Char.isDigit '+' := Nat.isDigit_of_mem_toDigits (b := 10) (n := n.toNat)
      (by omega) (by omega) (h ▸ List.mem_cons_self)
    exact absurd hplus (by decide)
  · rw [digitsValue?_toDigits]
    simp [n.toNat_lt_size]

end LoadTiers.Text
