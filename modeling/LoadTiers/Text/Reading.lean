/-! # Reading a text piece by piece

A reader takes a value off the front of a text and gives back the rest. The loops here apply a
reader again and again. They end because each piece makes the rest shorter, and what a reader has
to satisfy for that is stated along with it.
-/

namespace LoadTiers.Text

variable {α β : Type}

/-- A value that is read off the front of a text, with the rest of the text. -/
abbrev Reader (α : Type) := List Char → Option (α × List Char)

/-- The rest is never longer than the text. -/
def Lax (r : Reader α) : Prop :=
  ∀ ⦃s x rest⦄, r s = some (x, rest) → rest.length ≤ s.length

/-- The rest is always shorter than the text. -/
def Strict (r : Reader α) : Prop :=
  ∀ ⦃s x rest⦄, r s = some (x, rest) → rest.length < s.length

theorem Strict.lax {r : Reader α} (h : Strict r) : Lax r := fun _ _ _ e => Nat.le_of_lt (h e)

/-- Reads pieces after those of `done`, whose last comes first, until the text is used up. -/
def readAllAfter (piece : Reader α) (h : Strict piece) (done : List α) (s : List Char) :
    Option (List α) :=
  if s = [] then some done.reverse
  else match _ : piece s with
    | none => none
    | some (x, rest) => readAllAfter piece h (x :: done) rest
termination_by s.length
decreasing_by exact h ‹_›

def readAll (piece : Reader α) (h : Strict piece) (s : List Char) : Option (List α) :=
  readAllAfter piece h [] s

/-- Reads pieces up to the first place at which `stop` reads. -/
def readUntilAfter (stop : Reader β) (piece : Reader α) (h : Strict piece) (done : List α)
    (s : List Char) : Option ((List α × β) × List Char) :=
  match stop s with
  | some (y, rest) => some ((done.reverse, y), rest)
  | none =>
    match _ : piece s with
    | none => none
    | some (x, rest) => readUntilAfter stop piece h (x :: done) rest
termination_by s.length
decreasing_by exact h ‹_›

def readUntil (stop : Reader β) (piece : Reader α) (h : Strict piece) : Reader (List α × β) :=
  readUntilAfter stop piece h []

theorem readUntilAfter_lax {stop : Reader β} {piece : Reader α} (hs : Lax stop)
    (h : Strict piece) (done : List α) : Lax (readUntilAfter stop piece h done) := by
  intro s x rest e
  fun_induction readUntilAfter stop piece h done s with
  | case1 _ _ _ _ e' => cases e; exact hs e'
  | case2 => cases e
  | case3 _ _ _ _ _ e' ih => exact Nat.le_trans (ih e) (Nat.le_of_lt (h e'))

theorem readUntil_lax {stop : Reader β} {piece : Reader α} (hs : Lax stop) (h : Strict piece) :
    Lax (readUntil stop piece h) := readUntilAfter_lax hs h []

def literal? (t : List Char) (s : List Char) : Option (List Char) :=
  if t.isPrefixOf s then some (s.drop t.length) else none

theorem length_literal? {t s rest : List Char} (h : literal? t s = some rest) :
    rest.length + t.length = s.length := by
  unfold literal? at h
  split at h
  · next hp =>
    cases h
    have := (List.isPrefixOf_iff_prefix.1 hp).length_le
    rw [List.length_drop]
    omega
  · cases h

theorem length_dropWhile_le (p : Char → Bool) (s : List Char) :
    (s.dropWhile p).length ≤ s.length := (List.dropWhile_suffix p).length_le

def anyChar? : Reader Char
  | [] => none
  | c :: s => some (c, s)

theorem anyChar?_strict : Strict anyChar? := by
  rintro (_ | ⟨c, s⟩) x rest e <;> cases e
  exact Nat.lt_succ_self _

/-- Cuts at the first place where a mark stands: what is before it and what is after it. -/
def cutAt (mark : List Char) : Reader (List Char) := fun s =>
  (readUntil (fun s => (literal? mark s).map ((), ·)) anyChar? anyChar?_strict s).map
    fun ((before, _), rest) => (before, rest)

theorem cutAt_lax (mark : List Char) : Lax (cutAt mark) := by
  intro s x rest e
  obtain ⟨⟨⟨before, u⟩, r⟩, e', h⟩ := Option.map_eq_some_iff.1 e
  cases h
  refine readUntil_lax (fun s y rest e => ?_) anyChar?_strict e'
  obtain ⟨r, e, h⟩ := Option.map_eq_some_iff.1 e
  cases h
  have := length_literal? e
  omega

end LoadTiers.Text
