import LoadTiers.Text.Numeral
import LoadTiers.Text.Separated
import LoadTiers.Toml.Table

/-! # Numbers of TOML

Integers of 64 bits, in four bases, and floating-point numbers. An underscore may stand between two
digits.
-/

namespace LoadTiers.Toml

open LoadTiers.Text

/-- The digits of a numeral, without the underscores between them. -/
def digits? (base : Nat) (s : List Char) : Option (List Char) :=
  let groups := fields '_' s
  if groups.all fun g => g ≠ [] && g.all fun c => (digit? base c).isSome then some groups.flatten
  else none

/-- The digits of a decimal numeral, whose first digit is zero only if it is the only one. -/
def decimal? (s : List Char) : Option (List Char) := do
  let ds ← digits? 10 s
  guard (ds.head? ≠ some '0' ∨ ds.length = 1)
  return ds

def sign : List Char → Bool × List Char
  | '-' :: s => (true, s)
  | '+' :: s => (false, s)
  | s => (false, s)

def integerWithin? (n : Int) : Option Value :=
  if Int64.minValue.toInt ≤ n ∧ n ≤ Int64.maxValue.toInt then some (.integer n) else none

/-- An integer in a base that a letter names. -/
def based? (letter : Char) (s : List Char) : Option Value := do
  let base ← match letter with
    | 'x' => some 16
    | 'o' => some 8
    | 'b' => some 2
    | _ => none
  integerWithin? (← numeral? base (← digits? base s))

def integer? (s : List Char) : Option Value := do
  let (negative, s) := sign s
  let n : Int ← numeral? 10 (← decimal? s)
  integerWithin? (if negative then -n else n)

/-- Whether a positive number of the given digits, with `e` zeros after them, is beyond all doubles:
whether it is at least half a unit above the largest of them. -/
def overflows (ds : List Char) (e : Int) : Bool :=
  let m := (numeral? 10 ds).getD 0
  let bound := Nat.pow 2 1024 - Nat.pow 2 970
  let magnitude : Int := (Nat.toDigits 10 m).length + e
  if m = 0 ∨ magnitude ≤ 308 then false
  else if 310 ≤ magnitude then true
  else bound * Nat.pow 10 (-e).toNat ≤ m * Nat.pow 10 e.toNat

def exponent? (s : List Char) : Option Int := do
  let (negative, s) := sign s
  let n : Int ← numeral? 10 (← digits? 10 s)
  return if negative then -n else n

/-- A floating-point number, which has a fraction, an exponent or both. A positive one may not be
beyond all doubles. -/
def float? (s : List Char) : Option Value := do
  let (negative, body) := sign s
  let isMark : Char → Bool := fun c => c = 'e' || c = 'E'
  let mantissa := body.takeWhile (!isMark ·)
  let (whole, fraction) ← match fields '.' mantissa with
    | [whole] => some (whole, none)
    | [whole, fraction] => some (whole, some fraction)
    | _ => none
  let whole ← decimal? whole
  let fraction' ← match fraction with
    | some fraction => digits? 10 fraction
    | none => some []
  let exponent ← match body.dropWhile (!isMark ·) with
    | [] => some 0
    | _ :: exponent => exponent? exponent
  guard (fraction.isSome ∨ body.any isMark)
  guard (negative ∨ !overflows (whole ++ fraction') (exponent - fraction'.length))
  return .float (.ofList s)

end LoadTiers.Toml
