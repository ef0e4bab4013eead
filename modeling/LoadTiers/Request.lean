import LoadTiers.Roster
import LoadTiers.Version

/-! # Requests

What is asked of a registry: a flavor, a ceiling on the API version and a selection of extensions.
-/

namespace LoadTiers

open Text

inductive ExtensionSelection
  | all
  | named (names : NameSet)
  deriving DecidableEq, Inhabited

namespace ExtensionSelection

/-- An item of a list without quotes and without blanks at its ends. -/
def clean (item : String) : String :=
  .ofList (trimBy isBlank (item.toList.filter fun c => c ≠ '"' ∧ c ≠ '\''))

/-- The named items that are not empty; the item `all` stands for every extension. -/
def ofNames (items : List String) : ExtensionSelection :=
  let cleaned := items.map clean
  if "all" ∈ cleaned then all else named (.ofList (cleaned.filter (· ≠ "")))

def ofText (raw : String) : ExtensionSelection := ofNames (splitOn ',' raw)

def selects : ExtensionSelection → String → Bool
  | all, _ => true
  | named names, name => name ∈ names

end ExtensionSelection

structure Request where
  flavor : String := "vulkan"
  version : VersionRequest := .latest
  extensions : ExtensionSelection := .all
  deriving DecidableEq, Inhabited

end LoadTiers
