import LoadTiers.Proofs.First
import LoadTiers.Version

/-! # Texts of versions

A version is read from one number or from two with a dot between them, and from nothing else. What
is printed for a version or for a request is read back, so that it is a normal form of all texts
that are read as the same.
-/

namespace LoadTiers

namespace Text

structure DigitsText (ds : List Char) (n : Nat) : Prop where
  ne_nil : ds ≠ []
  isDigit : ∀ c ∈ ds, c.isDigit
  value : Nat.ofDigitChars 10 ds 0 = n
  le : n ≤ 4294967295

/-- Digits, with at most one plus sign before them. -/
inductive NumberText : List Char → Nat → Prop

  | unsigned {ds : List Char} {n : Nat} (h : DigitsText ds n) : NumberText ds n

  | signed {ds : List Char} {n : Nat} (h : DigitsText ds n) : NumberText ('+' :: ds) n

variable {s p ds : List Char} {n : Nat} {w : UInt32}

theorem digitsValue?_eq_some_iff : digitsValue? ds = some n ↔
    ds ≠ [] ∧ (∀ c ∈ ds, c.isDigit) ∧ Nat.ofDigitChars 10 ds 0 = n := by
  rw [digitsValue?, Option.ite_none_right_eq_some, Option.some.injEq, List.all_eq_true, and_assoc]

theorem digitsText_iff : DigitsText ds w.toNat ↔ ((digitsValue? ds).bind fun n =>
    if h : n < UInt32.size then some (UInt32.ofNatLT n h) else none) = some w := by
  rw [Option.bind_eq_some_iff]
  constructor
  · rintro ⟨hne, hd, hv, -⟩
    refine ⟨w.toNat, digitsValue?_eq_some_iff.mpr ⟨hne, hd, hv⟩, ?_⟩
    rw [dif_pos w.toNat_lt_size, UInt32.ofNatLT_toNat]
  · rintro ⟨n, hn, hw⟩
    obtain ⟨hne, hd, hv⟩ := digitsValue?_eq_some_iff.mp hn
    split at hw
    · next h =>
      cases hw
      rw [UInt32.toNat_ofNatLT]
      exact ⟨hne, hd, hv, Nat.le_of_lt_succ h⟩
    · cases hw

theorem word?_plus (ds : List Char) : word? ('+' :: ds) = some w ↔ DigitsText ds w.toNat :=
  digitsText_iff.symm

theorem word?_of_head?_ne_plus (h : s.head? ≠ some '+') :
    word? s = some w ↔ DigitsText s w.toNat := by
  rw [digitsText_iff]
  unfold word?
  split
  · exact absurd rfl h
  · rfl

theorem DigitsText.head?_ne_plus (h : DigitsText ds n) : ds.head? ≠ some '+' := by
  intro hp
  have hd : Char.isDigit '+' := h.isDigit '+' (List.mem_of_mem_head? hp)
  exact absurd hd (by decide)

theorem word?_eq_some_iff : word? s = some w ↔ NumberText s w.toNat := by
  constructor
  · intro h
    by_cases hp : s.head? = some '+'
    · obtain ⟨ds, rfl⟩ := List.head?_eq_some_iff.mp hp
      exact .signed ((word?_plus ds).mp h)
    · exact .unsigned ((word?_of_head?_ne_plus hp).mp h)
  · intro h
    generalize hn : w.toNat = n at h
    cases h with
    | unsigned h => exact (word?_of_head?_ne_plus h.head?_ne_plus).mpr (hn ▸ h)
    | signed h => exact (word?_plus _).mpr (hn ▸ h)

theorem NumberText.dot_not_mem (h : NumberText p n) : '.' ∉ p := by
  have hd : ∀ {ds}, DigitsText ds n → '.' ∉ ds :=
    fun h hm => absurd (h.isDigit '.' hm) (by decide)
  cases h with
  | unsigned h => exact hd h
  | signed h =>
    rw [List.mem_cons, not_or]
    exact ⟨by decide, hd h⟩

end Text

open Text

inductive VersionText : List Char → Version → Prop

  | major {p : List Char} {v : Version} (h : NumberText p v.major.toNat) (h0 : v.minor = 0) :
      VersionText p v

  | minor {p q : List Char} {v : Version} (h : NumberText p v.major.toNat)
      (h' : NumberText q v.minor.toNat) : VersionText (p ++ '.' :: q) v

namespace Version

variable {raw : String} {v : Version} {e : RegistryError}

theorem toList_toString (v : Version) :
    (toString v).toList =
      Nat.toDigits 10 v.major.toNat ++ '.' :: Nat.toDigits 10 v.minor.toNat := by
  simp [toString]

theorem trimBy_toString (v : Version) :
    trimBy isBlank (toString v).toList = (toString v).toList := by
  have hblank : ∀ {n : Nat}, ∀ c ∈ Nat.toDigits 10 n, isBlank c = false := fun c hc =>
    isBlank_eq_false_of_isDigit (Nat.isDigit_of_mem_toDigits (by omega) (by omega) hc)
  apply trimBy_eq_self
  intro c hc
  rw [toList_toString, List.mem_append, List.mem_cons] at hc
  rcases hc with hc | rfl | hc
  · exact hblank c hc
  · rfl
  · exact hblank c hc

theorem versionText_toString (v : Version) : VersionText (toString v).toList v := by
  rw [toList_toString]
  exact .minor (word?_eq_some_iff.mp (word?_toDigits v.major))
    (word?_eq_some_iff.mp (word?_toDigits v.minor))

/-- What is read is what the grammar says of the text between the blanks. -/
theorem ofText?_eq_some_iff :
    ofText? raw = some v ↔ VersionText (trimBy isBlank raw.toList) v := by
  rw [ofText?]
  generalize trimBy isBlank raw.toList = s
  constructor
  · intro h
    have hs := joinBy_fields '.' s
    split at h
    · next p hf =>
      obtain ⟨w, hw, h⟩ := Option.bind_eq_some_iff.mp h
      cases h
      rw [← hs, hf]
      exact .major (word?_eq_some_iff.mp hw) rfl
    · next p q hf =>
      obtain ⟨w, hw, h⟩ := Option.bind_eq_some_iff.mp h
      obtain ⟨w', hw', h⟩ := Option.bind_eq_some_iff.mp h
      cases h
      rw [← hs, hf]
      exact .minor (word?_eq_some_iff.mp hw) (word?_eq_some_iff.mp hw')
    · cases h
  · intro h
    obtain ⟨a, b⟩ := v
    cases h with
    | major h h0 =>
      obtain rfl : b = 0 := h0
      rw [fields_of_not_mem h.dot_not_mem]
      simp [word?_eq_some_iff.mpr h]
    | minor h h' =>
      rw [fields_append h.dot_not_mem, fields_of_not_mem h'.dot_not_mem]
      simp [word?_eq_some_iff.mpr h, word?_eq_some_iff.mpr h']

theorem ofText?_toString (v : Version) : ofText? (toString v) = some v := by
  rw [ofText?_eq_some_iff, trimBy_toString]
  exact versionText_toString v

theorem parse_eq_ok_iff : parse raw = .ok v ↔ VersionText (trim raw).toList v := by
  rw [trim, String.toList_ofList, ← ofText?_eq_some_iff, parse]
  cases ofText? raw <;> simp

theorem parse_eq_error_iff : parse raw = .error e ↔
    e = .unknownVersionFormat raw ∧ ∀ v, ¬ VersionText (trim raw).toList v := by
  simp only [trim, String.toList_ofList, ← ofText?_eq_some_iff, parse]
  cases ofText? raw <;> simp [eq_comm]

theorem parse_toString (v : Version) : parse (toString v) = .ok v := by
  rw [parse, ofText?_toString]

theorem parse_parse (raw : String) : (parse raw >>= fun v => parse (toString v)) = parse raw := by
  cases h : parse raw with
  | error e => rfl
  | ok v => rw [ok_bind, parse_toString]

theorem not_versionText_latest (v : Version) : ¬ VersionText "latest".toList v := by
  have hl : trimBy isBlank "latest".toList = "latest".toList := by decide
  rw [← hl, ← ofText?_eq_some_iff, show ofText? "latest" = none by decide]
  nofun

theorem trim_toString_ne_latest (v : Version) : trim (toString v) ≠ "latest" := by
  intro h
  have hv := versionText_toString v
  rw [← trimBy_toString v, ← String.toList_ofList (l := trimBy _ _), ← trim, h] at hv
  exact not_versionText_latest v hv

end Version

namespace VersionRequest

variable {raw : String} {v : Version} {e : RegistryError}

theorem parse_eq_latest_iff : parse raw = .ok latest ↔ trim raw = "latest" := by
  rw [parse]
  split
  · next h => simp [h]
  · next h =>
    cases Version.parse raw <;> simp [h, Functor.map, Except.map]

theorem parse_eq_upTo_iff :
    parse raw = .ok (upTo v) ↔ VersionText (trim raw).toList v := by
  rw [parse]
  split
  · next h =>
    rw [h, Except.ok.injEq]
    exact iff_of_false nofun (Version.not_versionText_latest v)
  · rw [← Version.parse_eq_ok_iff]
    cases Version.parse raw <;> simp [Functor.map, Except.map]

theorem parse_eq_error_iff : parse raw = .error e ↔ e = .unknownVersionFormat raw ∧
    trim raw ≠ "latest" ∧ ∀ v, ¬ VersionText (trim raw).toList v := by
  rw [parse, and_left_comm, ← Version.parse_eq_error_iff]
  split
  · next h => simp [h]
  · next h => cases Version.parse raw <;> simp [h, Functor.map, Except.map]

theorem parse_toString (q : VersionRequest) : parse (toString q) = .ok q := by
  cases q with
  | latest => exact parse_eq_latest_iff.mpr (by decide)
  | upTo v =>
    have h : parse (toString v) = .ok (upTo v) := by
      rw [parse, if_neg (Version.trim_toString_ne_latest v), Version.parse_toString]
      rfl
    exact h

theorem parse_parse (raw : String) : (parse raw >>= fun q => parse (toString q)) = parse raw := by
  cases h : parse raw with
  | error e => rfl
  | ok q => rw [ok_bind, parse_toString]

/-- What versions and requests are read from, how they are refused, and that what is printed for
them is read back. -/
theorem parse_exact (raw : String) :
    (∀ v, Version.parse raw = .ok v ↔ VersionText (trim raw).toList v) ∧
    (∀ e, Version.parse raw = .error e ↔
      e = .unknownVersionFormat raw ∧ ∀ v, ¬ VersionText (trim raw).toList v) ∧
    (parse raw = .ok latest ↔ trim raw = "latest") ∧
    (∀ v, parse raw = .ok (upTo v) ↔ VersionText (trim raw).toList v) ∧
    (∀ e, parse raw = .error e ↔ e = .unknownVersionFormat raw ∧ trim raw ≠ "latest" ∧
      ∀ v, ¬ VersionText (trim raw).toList v) ∧
    (∀ v, Version.parse (toString v) = .ok v) ∧ (∀ q, parse (toString q) = .ok q) ∧
    (Version.parse raw >>= fun v => Version.parse (toString v)) = Version.parse raw ∧
    (parse raw >>= fun q => parse (toString q)) = parse raw :=
  ⟨fun _ => Version.parse_eq_ok_iff, fun _ => Version.parse_eq_error_iff, parse_eq_latest_iff,
    fun _ => parse_eq_upTo_iff, fun _ => parse_eq_error_iff, Version.parse_toString,
    parse_toString, Version.parse_parse raw, parse_parse raw⟩

end VersionRequest

end LoadTiers
