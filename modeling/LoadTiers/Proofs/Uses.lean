import LoadTiers.Resolution
import LoadTiers.Proofs.FeatureOrder
import LoadTiers.Proofs.First

/-! # Uses of names

Features use the names of entry points in their adds and removes. Both the assembly of a registry
and the answer to a request go through uses in one order, and refuse the first one whose name has no
entry in the catalog.
-/

namespace LoadTiers

structure Use where
  feature : Feature
  removal : Bool
  name : String

namespace Use

variable {u v : Use} {catalog : Catalog} {us : List Use} {e : RegistryError}

def names (u : Use) : NameSet := if u.removal then u.feature.removes else u.feature.adds

/-- The order in which uses are checked: by feature, adds before removes, and then by name. -/
inductive Precedes (u v : Use) : Prop

  | feature (h : u.feature.Precedes v.feature)

  | removal (hf : u.feature = v.feature) (hu : u.removal = false) (hv : v.removal = true)

  | name (hf : u.feature = v.feature) (hr : u.removal = v.removal) (h : u.name < v.name)

theorem Precedes.asymm (h : u.Precedes v) : ¬ v.Precedes u := by
  intro h'
  cases h <;> cases h' <;> grind [Feature.Precedes.asymm, String.lt_asymm]

def check (catalog : Catalog) (u : Use) : Except RegistryError Unit :=
  discard (catalog.require u.name u.feature.name)

theorem check_eq_ok_iff : u.check catalog = .ok () ↔ catalog.contains u.name := by
  rw [check, Catalog.require, Roster.contains]
  cases catalog.get? u.name <;> simp

theorem check_eq_error_iff : u.check catalog = .error e ↔
    ¬ catalog.contains u.name ∧ e = .danglingReference u.name u.feature.name := by
  rw [check, Catalog.require, Roster.contains]
  cases catalog.get? u.name <;> simp [eq_comm]

theorem forM_check_eq_error_iff (hs : us.Pairwise Precedes) :
    forM us (check catalog) = .error e ↔
      ∃ u, IsFirst Precedes (fun u => u ∈ us ∧ ¬ catalog.contains u.name) u ∧
        e = .danglingReference u.name u.feature.name := by
  rw [forM_eq_error_iff_isFirst (fun _ _ => Precedes.asymm) hs]
  simp only [check_eq_error_iff, exists_and_left, exists_eq, and_true]
  exact exists_congr fun u => and_congr_right fun h => and_iff_right h.1.2

theorem forM_check_eq_ok_iff :
    forM us (check catalog) = .ok () ↔ ∀ u ∈ us, catalog.contains u.name := by
  simp only [forM_eq_ok_iff, check_eq_ok_iff]

end Use

namespace Feature

variable {f g : Feature} {u : Use}

def usesOf (f : Feature) (removal : Bool) : List Use :=
  (if removal then f.removes else f.adds).toList.map fun n => ⟨f, removal, n⟩

def uses (f : Feature) : List Use := f.usesOf false ++ f.usesOf true

theorem mem_usesOf {removal : Bool} :
    u ∈ f.usesOf removal ↔ u.feature = f ∧ u.removal = removal ∧ u.name ∈ u.names := by
  rw [usesOf, List.mem_map]
  constructor
  · rintro ⟨n, hn, rfl⟩
    exact ⟨rfl, rfl, hn⟩
  · rintro ⟨rfl, rfl, hn⟩
    exact ⟨u.name, hn, rfl⟩

theorem mem_uses : u ∈ f.uses ↔ u.feature = f ∧ u.name ∈ u.names := by
  rw [uses, List.mem_append, mem_usesOf, mem_usesOf]
  cases u.removal <;> simp

theorem usesOf_pairwise (f : Feature) (removal : Bool) :
    (f.usesOf removal).Pairwise Use.Precedes := by
  rw [usesOf, List.pairwise_map]
  exact (Roster.sorted _).imp fun h => .name rfl rfl h

theorem uses_pairwise (f : Feature) : f.uses.Pairwise Use.Precedes := by
  refine List.pairwise_append.mpr ⟨f.usesOf_pairwise false, f.usesOf_pairwise true, ?_⟩
  intro u hu v hv
  rw [mem_usesOf] at hu hv
  exact .removal (hu.1.trans hv.1.symm) hu.2.1 hv.2.1

end Feature

theorem pairwise_flatMap_uses {fs : List Feature} {uses : Feature → List Use}
    (hfs : fs.Pairwise Feature.Precedes) (hp : ∀ f, (uses f).Pairwise Use.Precedes)
    (hf : ∀ f, ∀ u ∈ uses f, u.feature = f) : (fs.flatMap uses).Pairwise Use.Precedes := by
  refine List.pairwise_flatMap.mpr ⟨fun f _ => hp f, hfs.imp fun h u hu v hv => .feature ?_⟩
  rw [hf _ u hu, hf _ v hv]
  exact h

namespace Registry

variable {catalog : Catalog}

theorem requireAll_adds (f : Feature) :
    requireAll catalog f.adds f.name = forM (f.usesOf false) (Use.check catalog) := by
  rw [Feature.usesOf, List.forM_map]
  rfl

theorem requireAll_removes (f : Feature) :
    requireAll catalog f.removes f.name = forM (f.usesOf true) (Use.check catalog) := by
  rw [Feature.usesOf, List.forM_map]
  rfl

theorem checkReferences_eq (f : Feature) :
    checkReferences catalog f = forM f.uses (Use.check catalog) := by
  rw [checkReferences, requireAll_adds, requireAll_removes, Feature.uses, List.forM_append]

end Registry

end LoadTiers
