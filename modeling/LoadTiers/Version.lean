import LoadTiers.Error
import LoadTiers.Text.Blank
import LoadTiers.Text.Numeral
import LoadTiers.Text.Separated

/-! # Versions

API versions, the ceilings that requests put on them, and their texts.
-/

namespace LoadTiers

open Text

structure Version where
  major : UInt32 := 0
  minor : UInt32 := 0
  deriving DecidableEq, Inhabited, Repr

namespace Version

instance : LT Version :=
  ⟨fun v w => v.major < w.major ∨ v.major = w.major ∧ v.minor < w.minor⟩

instance : LE Version :=
  ⟨fun v w => v.major < w.major ∨ v.major = w.major ∧ v.minor ≤ w.minor⟩

instance (v w : Version) : Decidable (v < w) :=
  inferInstanceAs (Decidable (v.major < w.major ∨ v.major = w.major ∧ v.minor < w.minor))

instance (v w : Version) : Decidable (v ≤ w) :=
  inferInstanceAs (Decidable (v.major < w.major ∨ v.major = w.major ∧ v.minor ≤ w.minor))

instance : Ord Version := ⟨fun v w => compareOfLessAndEq v w⟩

instance : ToString Version := ⟨fun v => s!"{v.major.toNat}.{v.minor.toNat}"⟩

/-- Reads `major` or `major.minor` between blanks. -/
def ofText? (raw : String) : Option Version := do
  match fields '.' (trimBy isBlank raw.toList) with
  | [major] => return { major := ← word? major }
  | [major, minor] => return { major := ← word? major, minor := ← word? minor }
  | _ => none

/-- Reads a version; a failure carries the text as it was given. -/
def parse (raw : String) : Except RegistryError Version :=
  match ofText? raw with
  | some v => .ok v
  | none => .error (.unknownVersionFormat raw)

end Version

inductive VersionRequest
  | latest
  | upTo (ceiling : Version)
  deriving DecidableEq, Inhabited, Repr

namespace VersionRequest

def admits : VersionRequest → Version → Bool
  | latest, _ => true
  | upTo ceiling, v => v ≤ ceiling

instance : ToString VersionRequest where
  toString
    | latest => "latest"
    | upTo ceiling => toString ceiling

/-- Reads `latest` between blanks, or else a version. -/
def parse (raw : String) : Except RegistryError VersionRequest :=
  if trim raw = "latest" then .ok latest else upTo <$> Version.parse raw

end VersionRequest

end LoadTiers
