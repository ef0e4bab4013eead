import LoadTiers.Text.Blank
import LoadTiers.Timestamp

/-! # Written points in time

The form `2024-02-29T12:34:56.789Z` of a point in time. Reading is lenient: blanks may stand
between the parts, and the time may be local with an offset.
-/

namespace LoadTiers.Timestamp

open Text

def padded (width n : Nat) : List Char :=
  let ds := Nat.toDigits 10 n
  List.replicate (width - ds.length) '0' ++ ds

/-- A year in four digits, and with a sign if four digits are not enough. -/
def yearText (year : Int) : List Char :=
  if 0 ≤ year ∧ year ≤ 9999 then padded 4 year.toNat
  else (if year < 0 then '-' else '+') :: padded 4 year.natAbs

/-- A fraction of a second in the fewest of 0, 3, 6 and 9 digits. -/
def fractionText (nanos : Nat) : List Char :=
  if nanos = 0 then []
  else if nanos % 1000000 = 0 then '.' :: padded 3 (nanos / 1000000)
  else if nanos % 1000 = 0 then '.' :: padded 6 (nanos / 1000)
  else '.' :: padded 9 nanos

/-- A point in time, with a mark for UTC at the end. -/
def text (zone : String) (t : Timestamp) : String :=
  .ofList (yearText t.year ++ '-' :: padded 2 t.month ++ '-' :: padded 2 t.day ++
    'T' :: padded 2 t.hour ++ ':' :: padded 2 t.minute ++ ':' :: padded 2 t.second ++
    fractionText t.nanos ++ zone.toList)

/-- A number of one digit or more, but of no more than `width` digits. -/
def number? (width : Nat) (s : List Char) : Option (Nat × List Char) :=
  let ds := (s.take width).takeWhile Char.isDigit
  if ds.isEmpty then none else some (Nat.ofDigitChars 10 ds 0, s.drop ds.length)

def field? (width : Nat) (s : List Char) : Option (Nat × List Char) :=
  number? width (s.dropWhile isBlank)

/-- A year after blanks: up to four digits, or any number of them after a sign. -/
def year? (s : List Char) : Option (Int × List Char) :=
  match s.dropWhile isBlank with
  | '-' :: s => (number? s.length s).map fun (n, s) => (-(n : Int), s)
  | '+' :: s => (number? s.length s).map fun (n, s) => ((n : Int), s)
  | s => (number? 4 s).map fun (n, s) => ((n : Int), s)

def mark? (c : Char) (s : List Char) : Option (List Char) :=
  match s.dropWhile isBlank with
  | d :: s => if d = c then some s else none
  | [] => none

/-- The fraction of a second in nanoseconds; digits after the ninth are dropped. -/
def fraction? (s : List Char) : Option (Nat × List Char) :=
  match s with
  | '.' :: s => do
    let (n, r) ← number? 9 s
    return (n * Nat.pow 10 (9 - (s.length - r.length)), r.dropWhile Char.isDigit)
  | s => some (0, s)

/-- Minutes east of Greenwich. -/
def offset? (s : List Char) : Option (Int × List Char) :=
  match s with
  | 'Z' :: s | 'z' :: s => some (0, s)
  | c :: h₁ :: h₂ :: s => do
    let sign ← if c = '+' then some 1 else if c = '-' ∨ c = '\u2212' then some (-1) else none
    guard (h₁.isDigit ∧ h₂.isDigit)
    match s.dropWhile fun c => c = ':' || isBlank c with
    | m₁ :: m₂ :: s =>
      guard (m₁.isDigit ∧ m₂.isDigit ∧ m₁.toNat < '6'.toNat)
      return (sign * (60 * Nat.ofDigitChars 10 [h₁, h₂] 0 +
        Nat.ofDigitChars 10 [m₁, m₂] 0), s)
    | _ => none
  | _ => none

/-- A time zone: `UTC` in any case, `Z`, or an offset. -/
def zone? (s : List Char) : Option (Int × List Char) :=
  if (s.take 3).map Char.toUpper = ['U', 'T', 'C'] then some (0, s.drop 3) else offset? s

def ofText? (raw : String) : Option Timestamp := do
  let (year, s) ← year? raw.toList
  let s ← mark? '-' s
  let (month, s) ← field? 2 s
  let s ← mark? '-' s
  let (day, s) ← field? 2 s
  let s ← match s with
    | 'T' :: s | 't' :: s | ' ' :: s => some s
    | _ => none
  let (hour, s) ← field? 2 s
  let s ← mark? ':' s
  let (minute, s) ← field? 2 s
  let s ← mark? ':' s
  let (second, s) ← field? 2 s
  let (nanos, s) ← fraction? s
  let (offset, s) ← zone? (s.dropWhile isBlank)
  guard (s.all isBlank)
  guard (offset.natAbs < 1440)
  let stated : CivilTime := { year, month, day, hour, minute, second, nanos }
  guard stated.IsValid
  ofCivil? (stated.minusMinutes offset)

end LoadTiers.Timestamp
