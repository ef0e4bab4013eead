import LoadTiers.Text.Numeral
import LoadTiers.Text.Reading
import LoadTiers.Xml.Char

/-! # Character data

References in character data, and how line breaks and white space in it are normalised.
-/

namespace LoadTiers.Xml

open LoadTiers.Text

inductive Piece
  | raw (c : Char)
  | reference (c : Char)
  deriving DecidableEq

/-- The character of a number in the given base. Numbers of no character stand for U+FFFD, and those
of characters that a document may not hold are refused. -/
def numbered? (base : Nat) (ds : List Char) : Option Char := do
  let n ← numeral? base ds
  guard (n < UInt32.size)
  let c := if n.isValidChar then .ofNat n else '\ufffd'
  guard (isAllowed c)
  return c

/-- The predefined entities. -/
def entities : List (String × Char) :=
  [("quot", '"'), ("amp", '&'), ("apos", '\''), ("lt", '<'), ("gt", '>')]

def referent? : List Char → Option Char
  | '#' :: 'x' :: ds => numbered? 16 ds
  | '#' :: ds => numbered? 10 ds
  | name => entities.lookup (.ofList name)

/-- Reads a reference after its ampersand. -/
def reference? : Reader Char := fun s => do
  let (name, rest) ← cutAt [';'] s
  return (← referent? name, rest)

theorem reference?_lax : Lax reference? := by
  intro s c rest h
  simp only [reference?, Option.bind_eq_bind, Option.bind_eq_some_iff] at h
  obtain ⟨⟨name, r⟩, hr, c', -, h⟩ := h
  cases h
  exact cutAt_lax _ hr

def Piece.next? : Reader Piece
  | [] => none
  | '&' :: s => (reference? s).map fun (c, s) => (.reference c, s)
  | c :: s => some (.raw c, s)

theorem Piece.next?_strict : Strict Piece.next? := by
  intro s p rest h
  unfold Piece.next? at h
  split at h
  · cases h
  · obtain ⟨⟨c, r⟩, hr, h⟩ := Option.map_eq_some_iff.1 h
    cases h
    exact Nat.lt_succ_of_le (reference?_lax hr)
  · cases h
    exact Nat.lt_succ_self _

def pieces? (s : List Char) : Option (List Piece) := readAll Piece.next? Piece.next?_strict s

/-- The characters of a text. A carriage return, with the line feed that may follow it, is read as a
line feed, but it stays when it stands directly before a reference, or between a reference and the
end. `referred` says whether a reference stands directly before. -/
def lineBreaks (referred : Bool) : List Piece → List Char
  | [] => []
  | .reference c :: ps => c :: lineBreaks true ps
  | .raw '\r' :: [] => [if referred then '\r' else '\n']
  | .raw '\r' :: .reference c :: ps => '\r' :: lineBreaks false (.reference c :: ps)
  | .raw '\r' :: .raw '\n' :: ps => '\n' :: lineBreaks false ps
  | .raw '\r' :: .raw c :: ps => '\n' :: lineBreaks false (.raw c :: ps)
  | .raw c :: ps => c :: lineBreaks false ps

/-- The characters of an attribute value. White space is read as blanks, of which a carriage return
and a line feed make one. -/
def blanks : List Piece → List Char
  | [] => []
  | .raw '\r' :: .raw '\n' :: ps => ' ' :: blanks ps
  | .raw c :: ps => (if isSpace c then ' ' else c) :: blanks ps
  | .reference c :: ps => c :: blanks ps

end LoadTiers.Xml
