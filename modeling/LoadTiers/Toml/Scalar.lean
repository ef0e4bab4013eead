import LoadTiers.Toml.DateTime
import LoadTiers.Toml.Number
import LoadTiers.Toml.Text

/-! # Scalars of TOML

Values that are neither arrays nor tables. Those that are not quoted are words, told apart by
their characters alone; a date and a time of day make one word even with a blank between them.
-/

namespace LoadTiers.Toml

open LoadTiers.Text

def word? (s : List Char) : Option Value :=
  if isDateTime s then some (.dateTime (.ofList s))
  else match s with
  | ['t', 'r', 'u', 'e'] => some (.boolean true)
  | ['f', 'a', 'l', 's', 'e'] => some (.boolean false)
  | '0' :: letter :: ds => (based? letter ds).or (float? s)
  | s =>
    if (sign s).2 = ['i', 'n', 'f'] ∨ (sign s).2 = ['n', 'a', 'n'] then some (.float (.ofList s))
    else (integer? s).or (float? s)

def isWordChar (c : Char) : Bool :=
  c.isAlphanum || c = '_' || c = '+' || c = '-' || c = '.' || c = ':'

def cutWord (s : List Char) : List Char × List Char :=
  let word := s.takeWhile isWordChar
  match s.dropWhile isWordChar with
  | ' ' :: rest =>
    let longer := word ++ ' ' :: rest.takeWhile isWordChar
    if isDateTime longer then (longer, rest.dropWhile isWordChar) else (word, ' ' :: rest)
  | rest => (word, rest)

theorem length_cutWord_le (s : List Char) : (cutWord s).2.length ≤ s.length := by
  have h := length_dropWhile_le isWordChar s
  unfold cutWord
  split
  · next rest e =>
    rw [e] at h
    dsimp only
    split
    · exact Nat.le_trans (length_dropWhile_le _ _) (Nat.le_of_succ_le h)
    · exact h
  · exact h

def scalar? : Reader Value := fun s =>
  if s.head?.any fun c => c = '"' || c = '\'' then (string? s).map fun (t, s) => (.string t, s)
  else (word? (cutWord s).1).map (·, (cutWord s).2)

theorem scalar?_lax : Lax scalar? := by
  intro s x rest h
  unfold scalar? at h
  split at h <;> obtain ⟨_, e, h⟩ := Option.map_eq_some_iff.1 h <;> cases h
  · exact string?_lax e
  · exact length_cutWord_le s

end LoadTiers.Toml
