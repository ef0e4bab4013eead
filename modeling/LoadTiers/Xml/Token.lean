import LoadTiers.Text.Separated
import LoadTiers.Xml.Text

/-! # Tokens of XML

Markup as a list of tags, character data, comments and processing instructions. Document type
declarations are refused.
-/

namespace LoadTiers.Xml

open LoadTiers.Text

/-- A name with the qualifier that stands before its colon, or with an empty one. -/
structure QName where
  qualifier : String
  name : String
  deriving DecidableEq

structure RawAttribute where
  name : QName
  value : String

inductive Token
  | startTag (name : QName) (attributes : List RawAttribute) (closed : Bool)
  | endTag (name : QName)
  /-- Character data outside of CDATA sections. -/
  | text (pieces : List Piece)
  | cdata (content : String)
  | comment (content : String)
  | instruction (target content : String)

/-- A name with at most one colon. -/
def QName.ofText? (s : List Char) : Option QName := do
  let (qualifier, name) ← match fields ':' s with
    | [name] => some ([], name)
    | [qualifier, name] => some (qualifier, name)
    | _ => none
  guard (qualifier.head?.all isNameStart && name.head?.any isNameStart)
  return ⟨.ofList qualifier, .ofList name⟩

def QName.next? : Reader QName := fun s => do
  return (← QName.ofText? (s.takeWhile isNameChar), s.dropWhile isNameChar)

theorem QName.next?_lax : Lax QName.next? := by
  intro s q rest h
  simp only [QName.next?, Option.bind_eq_bind, Option.bind_eq_some_iff] at h
  obtain ⟨_, -, h⟩ := h
  cases h
  exact length_dropWhile_le _ s

def equals? (s : List Char) : Option (List Char) := do
  (← literal? ['='] (s.dropWhile isSpace)).dropWhile isSpace

theorem length_equals? {s rest : List Char} (h : equals? s = some rest) :
    rest.length ≤ s.length := by
  simp only [equals?, Option.bind_eq_bind, Option.bind_eq_some_iff] at h
  obtain ⟨r, hr, h⟩ := h
  cases h
  have := length_literal? hr
  have := length_dropWhile_le isSpace s
  have := length_dropWhile_le isSpace r
  omega

/-- Reads a quoted text without a less-than sign. -/
def quoted? : Reader (List Char)
  | [] => none
  | q :: s => do
    guard (q = '"' ∨ q = '\'')
    let rest ← literal? [q] (s.dropWhile fun c => c ≠ q && c ≠ '<')
    return (s.takeWhile fun c => c ≠ q && c ≠ '<', rest)

theorem quoted?_lax : Lax quoted? := by
  rintro (_ | ⟨q, s⟩) x rest h
  · cases h
  · obtain ⟨_, -, h⟩ := Option.bind_eq_some_iff.1 h
    obtain ⟨_, hr, h⟩ := Option.bind_eq_some_iff.1 h
    cases h
    have := length_literal? hr
    have := length_dropWhile_le (fun c => c ≠ q && c ≠ '<') s
    rw [List.length_cons]
    omega

/-- Reads an attribute after the space that has to stand before it. -/
def RawAttribute.next? : Reader RawAttribute
  | [] => none
  | c :: s => do
    guard (isSpace c)
    let (name, s) ← QName.next? (s.dropWhile isSpace)
    let (value, s) ← quoted? (← equals? s)
    return (⟨name, .ofList (blanks (← pieces? value))⟩, s)

theorem RawAttribute.next?_strict : Strict RawAttribute.next? := by
  rintro (_ | ⟨c, s⟩) x rest h
  · cases h
  · obtain ⟨_, -, h⟩ := Option.bind_eq_some_iff.1 h
    obtain ⟨⟨_, _⟩, hn, h⟩ := Option.bind_eq_some_iff.1 h
    obtain ⟨_, he, h⟩ := Option.bind_eq_some_iff.1 h
    obtain ⟨⟨_, _⟩, hq, h⟩ := Option.bind_eq_some_iff.1 h
    obtain ⟨_, -, h⟩ := Option.bind_eq_some_iff.1 h
    cases h
    have := length_dropWhile_le isSpace s
    have := QName.next?_lax hn
    have := length_equals? he
    have := quoted?_lax hq
    rw [List.length_cons]
    omega

/-- Reads the end of a start tag, and whether it closes the element. -/
def tagEnd? : Reader Bool := fun s =>
  match s.dropWhile isSpace with
  | '/' :: '>' :: s => some (true, s)
  | '>' :: s => some (false, s)
  | _ => none

theorem tagEnd?_lax : Lax tagEnd? := by
  intro s x rest h
  have := length_dropWhile_le isSpace s
  unfold tagEnd? at h
  split at h <;> cases h <;> simp_all <;> omega

def startTag? : Reader Token := fun s => do
  let (name, s) ← QName.next? s
  let ((attributes, closed), s) ← readUntil tagEnd? RawAttribute.next? RawAttribute.next?_strict s
  return (.startTag name attributes closed, s)

theorem startTag?_lax : Lax startTag? := by
  intro s x rest h
  simp only [startTag?, Option.bind_eq_bind, Option.bind_eq_some_iff] at h
  obtain ⟨_, hn, _, hr, h⟩ := h
  cases h
  exact Nat.le_trans (readUntil_lax tagEnd?_lax _ hr) (QName.next?_lax hn)

def endTag? : Reader Token := fun s => do
  let (name, s) ← QName.next? s
  return (.endTag name, ← literal? ['>'] (s.dropWhile isSpace))

theorem endTag?_lax : Lax endTag? := by
  intro s x rest h
  simp only [endTag?, Option.bind_eq_bind, Option.bind_eq_some_iff] at h
  obtain ⟨q, hn, _, hl, h⟩ := h
  cases h
  have := QName.next?_lax hn
  have := length_dropWhile_le isSpace q.2
  have := length_literal? hl
  omega

/-- Reads a comment after its opening. Two hyphens close it. -/
def comment? : Reader Token := fun s => do
  let (content, s) ← cutAt ['-', '-'] s
  return (.comment (.ofList content), ← literal? ['>'] s)

theorem comment?_lax : Lax comment? := by
  intro s x rest h
  simp only [comment?, Option.bind_eq_bind, Option.bind_eq_some_iff] at h
  obtain ⟨_, hc, _, hl, h⟩ := h
  cases h
  have := cutAt_lax _ hc
  have := length_literal? hl
  omega

def cdata? : Reader Token := fun s => do
  let (content, s) ← cutAt "]]>".toList (← literal? "[CDATA[".toList s)
  return (.cdata (.ofList (lineBreaks false (content.map .raw))), s)

theorem cdata?_lax : Lax cdata? := by
  intro s x rest h
  simp only [cdata?, Option.bind_eq_bind, Option.bind_eq_some_iff] at h
  obtain ⟨_, hl, _, hc, h⟩ := h
  cases h
  have := cutAt_lax _ hc
  have := length_literal? hl
  omega

def instruction? : Reader Token := fun s => do
  guard (literal? "xml ".toList s).isNone
  guard (s.head?.any isNameStart)
  let (content, rest) ← cutAt ['?', '>'] (s.dropWhile isNameChar)
  return (.instruction (.ofList (s.takeWhile isNameChar))
    (.ofList (content.dropWhile isSpace)), rest)

theorem instruction?_lax : Lax instruction? := by
  intro s x rest h
  obtain ⟨_, -, h⟩ := Option.bind_eq_some_iff.1 h
  obtain ⟨_, -, h⟩ := Option.bind_eq_some_iff.1 h
  obtain ⟨⟨_, _⟩, hc, h⟩ := Option.bind_eq_some_iff.1 h
  cases h
  exact Nat.le_trans (cutAt_lax _ hc) (length_dropWhile_le _ s)

/-- Reads the token that starts with a less-than sign, after that sign. -/
def markup? : Reader Token
  | '!' :: '-' :: '-' :: s => comment? s
  | '!' :: s => cdata? s
  | '?' :: s => instruction? s
  | '/' :: s => endTag? s
  | s => startTag? s

theorem markup?_lax : Lax markup? := by
  intro s x rest h
  unfold markup? at h
  split at h
  · have := comment?_lax h
    simp only [List.length_cons]
    omega
  · exact Nat.le_succ_of_le (cdata?_lax h)
  · exact Nat.le_succ_of_le (instruction?_lax h)
  · exact Nat.le_succ_of_le (endTag?_lax h)
  · exact startTag?_lax h

/-- Reads character data that starts with `c`, up to the next less-than sign. -/
def text? (c : Char) : Reader Token := fun s => do
  let content := c :: s.takeWhile (· ≠ '<')
  guard (cutAt "]]>".toList content).isNone
  return (.text (← pieces? content), s.dropWhile (· ≠ '<'))

theorem text?_lax (c : Char) : Lax (text? c) := by
  intro s x rest h
  obtain ⟨_, -, h⟩ := Option.bind_eq_some_iff.1 h
  obtain ⟨_, -, h⟩ := Option.bind_eq_some_iff.1 h
  cases h
  exact length_dropWhile_le _ s

def Token.next? : Reader Token
  | [] => none
  | c :: s => if c = '<' then markup? s else text? c s

theorem Token.next?_strict : Strict Token.next? := by
  rintro (_ | ⟨c, s⟩) x rest h
  · cases h
  · rw [Token.next?] at h
    split at h
    · exact Nat.lt_succ_of_le (markup?_lax h)
    · exact Nat.lt_succ_of_le (text?_lax c h)

/-- Takes off the XML declaration that may start a document. -/
def declaration? (s : List Char) : Option (List Char) :=
  match literal? "<?xml ".toList s with
  | none => some s
  | some s => do
    let s ← pseudoAttribute? "version" true (s.dropWhile isSpace)
    let s ← pseudoAttribute? "encoding" false s
    let s ← pseudoAttribute? "standalone" false s
    literal? "?>".toList (s.dropWhile isSpace)
where
  /-- Takes off an attribute whose name starts with `name`, and the spaces after it. -/
  pseudoAttribute? (name : String) (required : Bool) (s : List Char) : Option (List Char) :=
    if (literal? name.toList s).isNone then if required then none else some s
    else do
      let (_, s) ← QName.next? s
      let (_, s) ← quoted? (← equals? s)
      guard (s.head?.all isSpace || (literal? "?>".toList s).isSome)
      return s.dropWhile isSpace

def tokens? (s : List Char) : Option (List Token) := do
  guard (s.all isAllowed)
  readAll Token.next? Token.next?_strict (← declaration? (match s with
    | '\ufeff' :: s => s
    | s => s))

end LoadTiers.Xml
