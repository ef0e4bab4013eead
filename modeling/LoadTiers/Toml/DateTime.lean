import LoadTiers.Text.Reading
import LoadTiers.Timestamp

/-! # Dates and times of TOML

A date, a time of day, or both, in which case an offset may follow. Every part of them has a fixed
number of digits, apart from the fraction of a second.
-/

namespace LoadTiers.Toml

open LoadTiers.Text

/-- Reads a number that has the given digits and lies within bounds. -/
def part? (width least greatest : Nat) : Reader Nat := fun s => do
  let ds := s.take width
  guard (ds.length = width ∧ ds.all Char.isDigit)
  let n := Nat.ofDigitChars 10 ds 0
  guard (least ≤ n ∧ n ≤ greatest)
  return (n, s.drop width)

def afterDate? (s : List Char) : Option (List Char) := do
  let (year, s) ← part? 4 0 9999 s
  let (month, s) ← part? 2 1 12 (← literal? ['-'] s)
  let (_, s) ← part? 2 1 (daysInMonth year month) (← literal? ['-'] s)
  return s

def afterMinutes? (s : List Char) : Option (List Char) := do
  let (_, s) ← part? 2 0 23 s
  let (_, s) ← part? 2 0 59 (← literal? [':'] s)
  return s

/-- Takes off a time of day. The second may be a leap second, and have a fraction. -/
def afterTime? (s : List Char) : Option (List Char) := do
  let (_, s) ← part? 2 0 60 (← literal? [':'] (← afterMinutes? s))
  match s with
  | '.' :: s =>
    guard (s.head?.any Char.isDigit)
    return s.dropWhile Char.isDigit
  | s => return s

def isOffset : List Char → Bool
  | [] => true
  | ['Z'] | ['z'] => true
  | '+' :: s | '-' :: s => afterMinutes? s = some []
  | _ => false

/-- Whether a text is a date, a time of day, or both with a `T` or a blank between them. -/
def isDateTime (s : List Char) : Bool :=
  match afterDate? s with
  | none => afterTime? s = some []
  | some [] => true
  | some (c :: time) =>
    (c = 'T' || c = 't' || c = ' ') && (afterTime? time).any isOffset

end LoadTiers.Toml
