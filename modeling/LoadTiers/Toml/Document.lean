import LoadTiers.Toml.Scalar

/-! # Documents of TOML

A document as a sequence of statements, which are assignments and headers, and the table that they
build up. A document without an admissible reading as a table is refused.
-/

namespace LoadTiers.Toml

open LoadTiers.Text

/-- The characters of keys without quotes. -/
def isBareChar (c : Char) : Bool := c.isAlphanum || c = '_' || c = '-'

def bareKey? : Reader String := fun s => do
  guard (s.head?.any isBareChar)
  return (.ofList (s.takeWhile isBareChar), s.dropWhile isBareChar)

def keyPart? : Reader String := fun s =>
  (((bareKey? (skipSpace s)).or (lineString? (skipSpace s)))).map fun (k, s) => (k, skipSpace s)

theorem keyPart?_lax : Lax keyPart? := by
  intro s x rest h
  obtain ⟨⟨k, r⟩, e, h⟩ := Option.map_eq_some_iff.1 h
  cases h
  have h₁ := length_skipSpace_le r
  have h₂ := length_skipSpace_le s
  rcases Option.or_eq_some_iff.1 e with e | ⟨-, e⟩
  · obtain ⟨_, -, e⟩ := Option.bind_eq_some_iff.1 e
    cases e
    have := length_dropWhile_le isBareChar (skipSpace s)
    omega
  · have := lineString?_lax e
    omega

def dottedPart? : Reader String := fun s => (literal? ['.'] s).bind keyPart?

theorem dottedPart?_strict : Strict dottedPart? := by
  intro s x rest h
  obtain ⟨r, e, h⟩ := Option.bind_eq_some_iff.1 h
  have := length_literal? e
  have := keyPart?_lax h
  rw [List.length_singleton] at *
  omega

/-- How many arrays and inline tables may stand inside each other, and how many parts a key may
have. -/
def maxDepth : Nat := 79

def key? : Reader Key := fun s => do
  let (part, s) ← keyPart? s
  let ((parts, _), s) ← readUntil (before? (· = '.')) dottedPart? dottedPart?_strict s
  guard (parts.length < maxDepth)
  return (part :: parts, s)

theorem key?_lax : Lax key? := by
  intro s x rest h
  obtain ⟨⟨_, _⟩, hp, h⟩ := Option.bind_eq_some_iff.1 h
  obtain ⟨⟨⟨_, _⟩, _⟩, hr, h⟩ := Option.bind_eq_some_iff.1 h
  obtain ⟨_, -, h⟩ := Option.bind_eq_some_iff.1 h
  cases h
  exact Nat.le_trans (readUntil_lax (before?_lax _) _ hr) (keyPart?_lax hp)

def assignment? (value : Reader Value) : Reader (Key × Value) := fun s => do
  let (k, s) ← key? s
  let (v, s) ← value (skipSpace (← literal? ['='] s))
  return ((k, v), skipSpace s)

theorem assignment?_strict {value : Reader Value} (hv : Lax value) :
    Strict (assignment? value) := by
  intro s x rest h
  simp only [assignment?, Option.bind_eq_bind, Option.bind_eq_some_iff] at h
  obtain ⟨_, hk, r, he, v, hr, h⟩ := h
  cases h
  have := key?_lax hk
  have := length_literal? he
  have := length_skipSpace_le r
  have := hv hr
  have := length_skipSpace_le v.2
  rw [List.length_singleton] at *
  omega

def afterComma? {α : Type} (r : Reader α) : Reader α := fun s => (literal? [','] s).bind r

theorem afterComma?_strict {α : Type} {r : Reader α} (hr : Lax r) : Strict (afterComma? r) := by
  intro s x rest h
  obtain ⟨_, e, h⟩ := Option.bind_eq_some_iff.1 h
  have := length_literal? e
  have := hr h
  rw [List.length_singleton] at *
  omega

/-- Reads an item of an array, with white space, line breaks and comments around it. -/
def item? (value : Reader Value) : Reader Value := fun s => do
  let (v, s) ← value (← skipLines? s)
  return (v, ← skipLines? s)

theorem item?_lax {value : Reader Value} (hv : Lax value) : Lax (item? value) := by
  intro s x rest h
  simp only [item?, Option.bind_eq_bind, Option.bind_eq_some_iff] at h
  obtain ⟨_, h₁, _, h₂, _, h₃, h⟩ := h
  cases h
  exact Nat.le_trans (length_skipLines? h₃) (Nat.le_trans (hv h₂) (length_skipLines? h₁))

/-- Closes an array. There may be a comma in front of the bracket. -/
def arrayEnd? : Reader Unit := fun s =>
  (mark? [']'] s).or
    (((literal? [','] s).bind skipLines?).bind (mark? [']']))

theorem arrayEnd?_lax : Lax arrayEnd? := by
  intro s x rest h
  rcases Option.or_eq_some_iff.1 h with h | ⟨-, h⟩
  · exact mark?_lax _ h
  · obtain ⟨r, hr, h⟩ := Option.bind_eq_some_iff.1 h
    obtain ⟨_, he, hr⟩ := Option.bind_eq_some_iff.1 hr
    have := mark?_lax _ h
    have := length_skipLines? hr
    have := length_literal? he
    omega

/-- Reads nothing and `empty`, or items with commas between them and `close`. -/
def listed? {α : Type} (empty close : Reader Unit) (item : Reader α) (h : Lax item) :
    Reader (List α) := fun s =>
  match empty s with
  | some (_, s) => some ([], s)
  | none => (item s).bind fun (first, s) =>
    (readUntil close (afterComma? item) (afterComma?_strict h) s).map fun ((more, _), s) =>
      (first :: more, s)

theorem listed?_lax {α : Type} {empty close : Reader Unit} {item : Reader α} (he : Lax empty)
    (hc : Lax close) (hi : Lax item) : Lax (listed? empty close item hi) := by
  intro s x rest h
  unfold listed? at h
  split at h
  · next e => cases h; exact he e
  · obtain ⟨_, e, h⟩ := Option.bind_eq_some_iff.1 h
    obtain ⟨_, hr, h⟩ := Option.map_eq_some_iff.1 h
    cases h
    exact Nat.le_trans (readUntil_lax hc _ hr) (hi e)

/-- Reads an array after its opening bracket. -/
def array? (value : Reader Value) (h : Lax value) : Reader Value := fun s => do
  let (items, s) ← listed? (mark? [']']) arrayEnd? (item? value) (item?_lax h) (← skipLines? s)
  return (.array items, s)

theorem array?_lax {value : Reader Value} (hv : Lax value) : Lax (array? value hv) := by
  intro s x rest h
  simp only [array?, Option.bind_eq_bind, Option.bind_eq_some_iff] at h
  obtain ⟨_, hs, _, hl, h⟩ := h
  cases h
  exact Nat.le_trans (listed?_lax (mark?_lax _) arrayEnd?_lax _ hl) (length_skipLines? hs)

/-- Reads an inline table after its opening brace. -/
def inlineTable? (value : Reader Value) (h : Lax value) : Reader Value := fun s => do
  let (assignments, s) ← listed? (mark? ['\x7d']) (mark? ['\x7d']) (assignment? value)
    (assignment?_strict h).lax (skipSpace s)
  return (.table .inline (← Entries.fill assignments []), s)

theorem inlineTable?_lax {value : Reader Value} (hv : Lax value) :
    Lax (inlineTable? value hv) := by
  intro s x rest h
  simp only [inlineTable?, Option.bind_eq_bind, Option.bind_eq_some_iff] at h
  obtain ⟨_, hl, _, -, h⟩ := h
  cases h
  exact Nat.le_trans (listed?_lax (mark?_lax _) (mark?_lax _) _ hl) (length_skipSpace_le s)

/-- Reads a value in which arrays and inline tables stand inside each other up to a depth. -/
def nested? : Nat → { value : Reader Value // Lax value }
  | 0 => ⟨scalar?, scalar?_lax⟩
  | depth + 1 =>
    let ⟨value, hv⟩ := nested? depth
    ⟨fun s =>
      match s with
      | '[' :: s => array? value hv s
      | '\x7b' :: s => inlineTable? value hv s
      | s => scalar? s, by
      intro s x rest h
      dsimp only at h
      split at h
      · exact Nat.le_succ_of_le (array?_lax hv h)
      · exact Nat.le_succ_of_le (inlineTable?_lax hv h)
      · exact scalar?_lax h⟩

def value? : Reader Value := (nested? maxDepth).1

theorem value?_lax : Lax value? := (nested? maxDepth).2

inductive Header
  | table (key : Key)
  | element (key : Key)

inductive Statement
  | blank
  | assignment (key : Key) (value : Value)
  | header (h : Header)

/-- Reads a header after its opening bracket. -/
def header? : Reader Header := fun s =>
  match literal? ['['] s with
  | some s => (key? s).bind fun (k, s) => (literal? [']', ']'] s).map (.element k, ·)
  | none => (key? s).bind fun (k, s) => (literal? [']'] s).map (.table k, ·)

theorem header?_lax : Lax header? := by
  intro s x rest h
  unfold header? at h
  split at h
  · next e =>
    obtain ⟨_, hk, h⟩ := Option.bind_eq_some_iff.1 h
    obtain ⟨_, he, h⟩ := Option.map_eq_some_iff.1 h
    cases h
    have := length_literal? e
    have := key?_lax hk
    have := length_literal? he
    omega
  · obtain ⟨_, hk, h⟩ := Option.bind_eq_some_iff.1 h
    obtain ⟨_, he, h⟩ := Option.map_eq_some_iff.1 h
    cases h
    have := key?_lax hk
    have := length_literal? he
    omega

/-- Reads a line that is not empty. -/
def line? : Reader Statement
  | [] => none
  | c :: s =>
    if c = '[' then (header? s).bind fun (h, s) => (lineEnd? s).map (.header h, ·)
    else if c = '#' ∨ c = '\n' ∨ c = '\r' then (lineEnd? (c :: s)).map (.blank, ·)
    else (assignment? value? (c :: s)).bind fun ((k, v), s) =>
      (lineEnd? s).map (.assignment k v, ·)

theorem line?_strict : Strict line? := by
  rintro (_ | ⟨c, s⟩) x rest h
  · cases h
  · simp only [line?] at h
    split at h
    · obtain ⟨_, hh, h⟩ := Option.bind_eq_some_iff.1 h
      obtain ⟨_, he, h⟩ := Option.map_eq_some_iff.1 h
      cases h
      have := header?_lax hh
      have := length_lineEnd? he
      rw [List.length_cons]
      omega
    · split at h
      · obtain ⟨_, he, h⟩ := Option.map_eq_some_iff.1 h
        cases h
        have := length_lineEnd? he
        rw [List.length_cons] at *
        omega
      · obtain ⟨_, ha, h⟩ := Option.bind_eq_some_iff.1 h
        obtain ⟨_, he, h⟩ := Option.map_eq_some_iff.1 h
        cases h
        have := assignment?_strict value?_lax ha
        have := length_lineEnd? he
        omega

def Statement.next? : Reader Statement
  | [] => none
  | c :: s =>
    if isSpace c then
      match skipSpace s with
      | [] => some (.blank, [])
      | c :: s => line? (c :: s)
    else line? (c :: s)

theorem Statement.next?_strict : Strict Statement.next? := by
  rintro (_ | ⟨c, s⟩) x rest h
  · cases h
  · simp only [Statement.next?] at h
    split at h
    · have := length_skipSpace_le s
      split at h
      · cases h
        exact Nat.zero_lt_succ _
      · next e =>
        rw [e] at this
        exact Nat.lt_of_lt_of_le (line?_strict h) (Nat.le_succ_of_le this)
    · exact line?_strict h

/-- The assignments in front of the first header, and each header with the assignments below it. -/
def sections : List Statement → List (Key × Value) × List (Header × List (Key × Value))
  | [] => ([], [])
  | .blank :: ss => sections ss
  | .assignment k v :: ss => ((k, v) :: (sections ss).1, (sections ss).2)
  | .header h :: ss => ([], (h, (sections ss).1) :: (sections ss).2)

def addSection (es : Entries) : Header × List (Key × Value) → Option Entries
  | (.table k, assignments) => Entries.atHeader (Entries.openTable assignments) k es
  | (.element k, assignments) => Entries.atHeader (Entries.openElement assignments) k es

def document? (s : String) : Option Entries := do
  let statements ← readAll Statement.next? Statement.next?_strict (match s.toList with
    | '\ufeff' :: s => s
    | s => s)
  let (top, rest) := sections statements
  rest.foldlM addSection (← Entries.fill top [])

end LoadTiers.Toml
