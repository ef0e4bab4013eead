import LoadTiers.Text.Numeral
import LoadTiers.Text.Reading

/-! # Texts of TOML

Strings in one or in three quotes, with and without escapes, and the blanks, line breaks and
comments around values.
-/

namespace LoadTiers.Toml

open LoadTiers.Text

def isSpace (c : Char) : Bool := c = ' ' ∨ c = '\t'

/-- The characters that stand for themselves within a line: all but control characters. -/
def isPlain (c : Char) : Bool := c = '\t' ∨ (' ' ≤ c ∧ c ≠ '\x7f')

def skipSpace (s : List Char) : List Char := s.dropWhile isSpace

theorem length_skipSpace_le (s : List Char) : (skipSpace s).length ≤ s.length :=
  length_dropWhile_le isSpace s

def lineBreak? : List Char → Option (List Char)
  | '\n' :: s => some s
  | '\r' :: '\n' :: s => some s
  | _ => none

theorem length_lineBreak? {s rest : List Char} (h : lineBreak? s = some rest) :
    rest.length < s.length := by
  unfold lineBreak? at h
  split at h <;> cases h <;> simp only [List.length_cons] <;> omega

def skipComment : List Char → List Char
  | '#' :: s => s.dropWhile isPlain
  | s => s

theorem length_skipComment_le (s : List Char) : (skipComment s).length ≤ s.length := by
  unfold skipComment
  split
  · exact Nat.le_succ_of_le (length_dropWhile_le _ _)
  · exact Nat.le_refl _

/-- Takes off the rest of a line that holds at most a comment. -/
def lineEnd? (s : List Char) : Option (List Char) :=
  match skipComment (skipSpace s) with
  | [] => some []
  | c :: s => lineBreak? (c :: s)

theorem length_lineEnd? {s rest : List Char} (h : lineEnd? s = some rest) :
    rest.length ≤ s.length - 1 := by
  have h₁ := length_skipComment_le (skipSpace s)
  have h₂ := length_skipSpace_le s
  unfold lineEnd? at h
  split at h
  · cases h
    exact Nat.zero_le _
  · next e =>
    rw [e] at h₁
    have := length_lineBreak? h
    omega

/-- Skips a character of white space, a line break or a comment with its line break. -/
def gap? : Reader Unit
  | [] => none
  | '#' :: s => (lineBreak? (s.dropWhile isPlain)).map ((), ·)
  | c :: s => if isSpace c then some ((), s) else (lineBreak? (c :: s)).map ((), ·)

theorem gap?_strict : Strict gap? := by
  intro s x rest h
  unfold gap? at h
  split at h
  · cases h
  · obtain ⟨r, e, h⟩ := Option.map_eq_some_iff.1 h
    cases h
    exact Nat.lt_succ_of_lt (Nat.lt_of_lt_of_le (length_lineBreak? e) (length_dropWhile_le _ _))
  · split at h
    · cases h
      exact Nat.lt_succ_self _
    · obtain ⟨r, e, h⟩ := Option.map_eq_some_iff.1 h
      cases h
      exact length_lineBreak? e

/-- Stops in front of a character unless it satisfies `p`. -/
def before? (p : Char → Bool) : Reader Unit := fun s =>
  if s.head?.any p then none else some ((), s)

theorem before?_lax (p : Char → Bool) : Lax (before? p) := by
  intro s x rest h
  unfold before? at h
  split at h <;> cases h
  exact Nat.le_refl _

def skipLines? (s : List Char) : Option (List Char) :=
  (readUntil (before? fun c => isSpace c || c = '\n' || c = '\r' || c = '#') gap? gap?_strict s).map
    (·.2)

theorem length_skipLines? {s rest : List Char} (h : skipLines? s = some rest) :
    rest.length ≤ s.length := by
  obtain ⟨_, e, h⟩ := Option.map_eq_some_iff.1 h
  cases h
  exact readUntil_lax (before?_lax _) gap?_strict e

/-- Reads a character that is written as a number of `n` hexadecimal digits. -/
def numbered? (n : Nat) : Reader Char := fun s => do
  guard (n ≤ s.length)
  let c ← numeral? 16 (s.take n)
  guard c.isValidChar
  return (.ofNat c, s.drop n)

theorem numbered?_lax (n : Nat) : Lax (numbered? n) := by
  intro s x rest h
  obtain ⟨_, -, h⟩ := Option.bind_eq_some_iff.1 h
  obtain ⟨_, -, h⟩ := Option.bind_eq_some_iff.1 h
  obtain ⟨_, -, h⟩ := Option.bind_eq_some_iff.1 h
  cases h
  rw [List.length_drop]
  omega

def shortEscapes : List (Char × Char) :=
  [('b', '\x08'), ('t', '\t'), ('n', '\n'), ('f', '\x0c'), ('r', '\r'), ('"', '"'), ('\\', '\\')]

def escape? : Reader Char
  | [] => none
  | 'u' :: s => numbered? 4 s
  | 'U' :: s => numbered? 8 s
  | c :: s => (shortEscapes.lookup c).map (·, s)

theorem escape?_lax : Lax escape? := by
  intro s x rest h
  unfold escape? at h
  split at h
  · cases h
  · exact Nat.le_succ_of_le (numbered?_lax _ h)
  · exact Nat.le_succ_of_le (numbered?_lax _ h)
  · obtain ⟨_, -, h⟩ := Option.map_eq_some_iff.1 h
    cases h
    exact Nat.le_succ _

/-- Reads a character between double quotes. -/
def escapedChar? : Reader Char
  | [] => none
  | c :: s => if c = '\\' then escape? s else if isPlain c then some (c, s) else none

theorem escapedChar?_strict : Strict escapedChar? := by
  rintro (_ | ⟨c, s⟩) x rest h
  · cases h
  · simp only [escapedChar?] at h
    split at h
    · exact Nat.lt_succ_of_le (escape?_lax h)
    · split at h <;> cases h
      exact Nat.lt_succ_self _

/-- Reads a character between single quotes. -/
def literalChar? : Reader Char
  | [] => none
  | c :: s => if isPlain c then some (c, s) else none

theorem literalChar?_strict : Strict literalChar? := by
  rintro (_ | ⟨c, s⟩) x rest h
  · cases h
  · simp only [literalChar?] at h
    split at h <;> cases h
    exact Nat.lt_succ_self _

def mark? (t : List Char) : Reader Unit := fun s => (literal? t s).map ((), ·)

theorem mark?_lax (t : List Char) : Lax (mark? t) := by
  intro s x rest h
  obtain ⟨r, e, h⟩ := Option.map_eq_some_iff.1 h
  cases h
  have := length_literal? e
  omega

/-- Reads what stands between an opening quote and the next quote of its kind. -/
def quoted? (quote : Char) (char : Reader Char) (h : Strict char) : Reader String := fun s => do
  let ((cs, _), s) ← readUntil (mark? [quote]) char h s
  return (.ofList cs, s)

theorem quoted?_lax (quote : Char) {char : Reader Char} (hc : Strict char) :
    Lax (quoted? quote char hc) := by
  intro s x rest h
  simp only [quoted?, Option.bind_eq_bind, Option.bind_eq_some_iff] at h
  obtain ⟨_, e, h⟩ := h
  cases h
  exact readUntil_lax (mark?_lax _) hc e

/-- Skips what follows a backslash at the end of a line, from the line break on: all white space and
line breaks. -/
def continuation? (s : List Char) : Option (List Char) :=
  (lineBreak? (skipSpace s)).map skip
where
  /-- Skips white space and line breaks. A carriage return alone is none. -/
  skip : List Char → List Char
    | [] => []
    | '\r' :: '\n' :: s => skip s
    | c :: s => if isSpace c ∨ c = '\n' then skip s else c :: s

theorem length_skip_le (s : List Char) : (continuation?.skip s).length ≤ s.length := by
  fun_induction continuation?.skip s with
  | case1 => exact Nat.le_refl _
  | case2 _ ih => exact Nat.le_trans ih (Nat.le_add_right _ 2)
  | case3 _ _ _ _ ih => exact Nat.le_succ_of_le ih
  | case4 => exact Nat.le_refl _

theorem length_continuation? {s rest : List Char} (h : continuation? s = some rest) :
    rest.length ≤ s.length := by
  obtain ⟨r, e, h⟩ := Option.map_eq_some_iff.1 h
  cases h
  have := length_lineBreak? e
  have := length_skipSpace_le s
  have := length_skip_le r
  omega

def lineChar? (char : Reader Char) : Reader Char := fun s =>
  match lineBreak? s with
  | some s => some ('\n', s)
  | none => char s

theorem lineChar?_strict {char : Reader Char} (hc : Strict char) : Strict (lineChar? char) := by
  intro s x rest h
  unfold lineChar? at h
  split at h
  · next e => cases h; exact length_lineBreak? e
  · exact hc h

def literalPiece? : Reader (List Char) := fun s =>
  (lineChar? literalChar? s).map fun (c, s) => ([c], s)

theorem literalPiece?_strict : Strict literalPiece? := by
  intro s x rest h
  obtain ⟨_, e, h⟩ := Option.map_eq_some_iff.1 h
  cases h
  exact lineChar?_strict literalChar?_strict e

def escapedPiece? : Reader (List Char) := fun s =>
  match (literal? ['\\'] s).bind continuation? with
  | some s => some ([], s)
  | none => (lineChar? escapedChar? s).map fun (c, s) => ([c], s)

theorem escapedPiece?_strict : Strict escapedPiece? := by
  intro s x rest h
  unfold escapedPiece? at h
  split at h
  · next e =>
    obtain ⟨r, hr, e⟩ := Option.bind_eq_some_iff.1 e
    cases h
    have := length_literal? hr
    have := length_continuation? e
    rw [List.length_singleton] at *
    omega
  · obtain ⟨_, e, h⟩ := Option.map_eq_some_iff.1 h
    cases h
    exact lineChar?_strict escapedChar?_strict e

/-- Closes a text of several lines. Of four or five quotes, the last three close it. -/
def closing? (quote : Char) : Reader (List Char) := fun s =>
  let n := (s.takeWhile (· = quote)).length
  if n < 3 then none
  else some (List.replicate (min (n - 3) 2) quote, s.drop (min n 5))

theorem closing?_lax (quote : Char) : Lax (closing? quote) := by
  intro s x rest h
  simp only [closing?] at h
  split at h <;> cases h
  rw [List.length_drop]
  omega

/-- Reads a text of several lines after its opening quotes. A line break directly after them does
not count. -/
def multiline? (quote : Char) (piece : Reader (List Char)) (h : Strict piece) : Reader String :=
  fun s => do
    let ((pieces, last), s) ← readUntil (closing? quote) piece h ((lineBreak? s).getD s)
    return (.ofList (pieces.flatten ++ last), s)

theorem multiline?_lax (quote : Char) {piece : Reader (List Char)} (hp : Strict piece) :
    Lax (multiline? quote piece hp) := by
  intro s x rest h
  simp only [multiline?, Option.bind_eq_bind, Option.bind_eq_some_iff] at h
  obtain ⟨_, e, h⟩ := h
  cases h
  refine Nat.le_trans (readUntil_lax (closing?_lax _) hp e) ?_
  cases e' : lineBreak? s with
  | none => exact Nat.le_refl _
  | some r => exact Nat.le_of_lt (length_lineBreak? e')

def lineString? : Reader String
  | '"' :: s => quoted? '"' escapedChar? escapedChar?_strict s
  | '\'' :: s => quoted? '\'' literalChar? literalChar?_strict s
  | _ => none

theorem lineString?_lax : Lax lineString? := by
  intro s x rest h
  unfold lineString? at h
  split at h
  · exact Nat.le_succ_of_le (quoted?_lax _ _ h)
  · exact Nat.le_succ_of_le (quoted?_lax _ _ h)
  · cases h

def string? : Reader String
  | '"' :: '"' :: '"' :: s => multiline? '"' escapedPiece? escapedPiece?_strict s
  | '\'' :: '\'' :: '\'' :: s => multiline? '\'' literalPiece? literalPiece?_strict s
  | s => lineString? s

theorem string?_lax : Lax string? := by
  intro s x rest h
  unfold string? at h
  split at h
  · have := multiline?_lax _ _ h
    simp only [List.length_cons]
    omega
  · have := multiline?_lax _ _ h
    simp only [List.length_cons]
    omega
  · exact lineString?_lax h

end LoadTiers.Toml
