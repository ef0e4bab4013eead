import LoadTiers.Roster
import LoadTiers.Version

/-! # Features

Bundles of entry points: the API versions and the extensions of a registry. A later declaration
replaces an earlier one of the same kind and name.
-/

namespace LoadTiers

inductive FeatureKind
  | apiVersion
  | extension (deprecated : Bool) (supersededBy : Option String)
  deriving DecidableEq, Inhabited

/-- A bundle of entry points under a name and a version. -/
structure Feature where
  name : String
  kind : FeatureKind
  /-- The API version, or the revision of an extension. -/
  version : Version := {}
  flavors : NameSet := ∅
  adds : NameSet := ∅
  /-- Taken away from what API versions add; without effect in an extension. -/
  removes : NameSet := ∅
  deriving DecidableEq, Inhabited

namespace Feature

def isExtension (f : Feature) : Bool :=
  match f.kind with
  | .apiVersion => false
  | .extension .. => true

/-- Whether the feature is a deprecated extension. -/
def isDeprecated (f : Feature) : Bool :=
  match f.kind with
  | .apiVersion => false
  | .extension deprecated _ => deprecated

def supersededBy (f : Feature) : Option String :=
  match f.kind with
  | .apiVersion => none
  | .extension _ supersededBy => supersededBy

/-- Marks an extension as deprecated; API versions stay as they are. -/
def markDeprecated (f : Feature) (supersededBy : Option String) : Feature :=
  match f.kind with
  | .apiVersion => f
  | .extension .. => { f with kind := .extension true supersededBy }

def supports (f : Feature) (flavor : String) : Bool := flavor ∈ f.flavors

/-- The order of API versions: by version, then by name. -/
def before (f f' : Feature) : Bool :=
  f.version < f'.version || (f.version = f'.version && f.name ≤ f'.name)

end Feature

structure FeatureSet where
  versions : Roster Feature.name
  extensionRoster : Roster Feature.name
  isVersion : ∀ f ∈ versions.toList, f.isExtension = false
  isExtension : ∀ f ∈ extensionRoster.toList, f.isExtension = true

namespace FeatureSet

def empty : FeatureSet := ⟨∅, ∅, nofun, nofun⟩

instance : EmptyCollection FeatureSet := ⟨empty⟩
instance : Inhabited FeatureSet := ⟨empty⟩

def apiVersion? (s : FeatureSet) (name : String) : Option Feature := s.versions.get? name

def extension? (s : FeatureSet) (name : String) : Option Feature := s.extensionRoster.get? name

/-- Adds a feature in place of the one of its kind and name. -/
def insert (s : FeatureSet) (f : Feature) : FeatureSet :=
  if h : f.isExtension then
    { s with
      extensionRoster := s.extensionRoster.insert f
      isExtension := fun f' hf' => by
        rcases Roster.mem_insert.1 hf' with rfl | hf'
        · exact h
        · exact s.isExtension f' hf'.1 }
  else
    { s with
      versions := s.versions.insert f
      isVersion := fun f' hf' => by
        rcases Roster.mem_insert.1 hf' with rfl | hf'
        · simpa using h
        · exact s.isVersion f' hf'.1 }

theorem extension?_insert {s : FeatureSet} {f : Feature} {n : String} :
    (s.insert f).extension? n =
      if f.isExtension ∧ f.name = n then some f else s.extension? n := by
  unfold insert
  split
  · next h => simp only [extension?, Roster.get?_insert, h, true_and, eq_comm]
  · next h => simp only [extension?, h, Bool.false_eq_true, false_and, if_false]

/-- The last extension of a name counts. -/
theorem extension?_foldl_insert {l : List Feature} {s : FeatureSet} {n : String} :
    (l.foldl insert s).extension? n =
      (l.reverse.find? fun f => f.isExtension && f.name == n).or (s.extension? n) := by
  induction l generalizing s with
  | nil => rfl
  | cons f l ih =>
    rw [List.foldl_cons, ih, extension?_insert, List.reverse_cons, List.find?_append,
      Option.or_assoc]
    by_cases h : f.isExtension ∧ f.name = n
    · simp [h]
    · rw [if_neg h, List.find?_cons_of_neg (by simpa using h)]
      rfl

/-- The feature that an insertion of `f` replaces. -/
def replaced (s : FeatureSet) (f : Feature) : Option Feature :=
  if f.isExtension then s.extension? f.name else s.apiVersion? f.name

def apiVersions (s : FeatureSet) : List Feature := s.versions.toList.mergeSort Feature.before

def extensions (s : FeatureSet) : List Feature := s.extensionRoster.toList

def size (s : FeatureSet) : Nat := s.versions.size + s.extensionRoster.size

def knowsFlavor (s : FeatureSet) (flavor : String) : Bool :=
  s.versions.toList.any (·.supports flavor) || s.extensions.any (·.supports flavor)

end FeatureSet

end LoadTiers
