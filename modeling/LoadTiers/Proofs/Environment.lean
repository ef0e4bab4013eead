import LoadTiers.Disk
import LoadTiers.Environment
import LoadTiers.Proofs.First

/-! # The first registry in the environment

The directories that an environment names, and those of the system, are searched in a fixed order.
A search finds the first of them that has a registry.
-/

namespace LoadTiers.Environment

variable {e : Environment} {d : Disk} {path : String}

/-- The directories below which software may be installed, each with its place in the search. -/
inductive Installs (e : Environment) : Nat × String → Prop

  | sdk {p : String} (h : e.sdk = some p) (hp : Text.trim p ≠ "") : Installs e (0, p)

  | sdkPath {p : String} (h : e.sdkPath = some p) (hp : Text.trim p ≠ "") : Installs e (1, p)

  | home {p : String} (h : e.home = some p) (hp : p ≠ "") : Installs e (2, Path.join p ".local")

  | siteWide : Installs e (3, "/usr/local")

  | system : Installs e (4, "/usr")

def registryBelow (x : Nat × String) : String := Path.join x.2 "share/vulkan/registry/vk.xml"

def FirstRegistry (e : Environment) (d : Disk) : Nat × String → Prop :=
  IsFirst (fun x y => x.1 < y.1) fun x => e.Installs x ∧ d.isFile (registryBelow x)

def ranked (e : Environment) : List (Nat × String) :=
  (e.sdk.toList.filter (Text.trim · ≠ "")).map (0, ·) ++
    (e.sdkPath.toList.filter (Text.trim · ≠ "")).map (1, ·) ++
    (e.home.toList.filter (· ≠ "")).map (fun p => (2, Path.join p ".local")) ++
    [(3, "/usr/local"), (4, "/usr")]

theorem mem_ranked_iff {x : Nat × String} : x ∈ e.ranked ↔ e.Installs x := by
  simp only [ranked, List.mem_append, List.mem_map, List.mem_filter, Option.mem_toList,
    decide_eq_true_eq]
  constructor
  · rintro (((⟨p, ⟨h, hp⟩, rfl⟩ | ⟨p, ⟨h, hp⟩, rfl⟩) | ⟨p, ⟨h, hp⟩, rfl⟩) | h)
    · exact .sdk h hp
    · exact .sdkPath h hp
    · exact .home h hp
    · rcases List.mem_pair.mp h with rfl | rfl
      · exact .siteWide
      · exact .system
  · rintro (⟨h, hp⟩ | ⟨h, hp⟩ | ⟨h, hp⟩ | - | -)
    · exact .inl (.inl (.inl ⟨_, ⟨h, hp⟩, rfl⟩))
    · exact .inl (.inl (.inr ⟨_, ⟨h, hp⟩, rfl⟩))
    · exact .inl (.inr ⟨_, ⟨h, hp⟩, rfl⟩)
    · exact .inr (by simp)
    · exact .inr (by simp)

theorem ranked_pairwise (e : Environment) : e.ranked.Pairwise fun x y => x.1 < y.1 := by
  have hone : ∀ (o : Option String) (q : String → Bool) (f : String → Nat × String),
      ((o.toList.filter q).map f).Pairwise fun x y => x.1 < y.1 := by
    intro o q f
    cases o with
    | none => exact .nil
    | some p => cases hp : q p <;> simp [hp]
  simp only [ranked, List.pairwise_append, hone, List.mem_append, List.mem_map]
  grind

theorem candidates_eq (e : Environment) : e.candidates = e.ranked.map registryBelow := by
  simp [candidates, installations, ranked, registryBelow, Function.comp_def]

theorem find?_candidates_eq_some_iff : e.candidates.find? d.isFile = some path ↔
    ∃ x, e.FirstRegistry d x ∧ registryBelow x = path := by
  rw [candidates_eq, List.find?_map, Option.map_eq_some_iff]
  refine exists_congr fun x => and_congr_left' ?_
  rw [find?_eq_some_iff_isFirst (fun _ _ => Nat.lt_asymm) e.ranked_pairwise]
  simp only [FirstRegistry, mem_ranked_iff, Function.comp_apply]

theorem find?_candidates_eq_none_iff : e.candidates.find? d.isFile = none ↔
    ∀ x, e.Installs x → ¬ d.isFile (registryBelow x) := by
  simp [candidates_eq, mem_ranked_iff]

/-- A blank directory and an empty home are left aside. -/
example : ({ sdk := some " ", sdkPath := some "sdk", home := some "" } : Environment).candidates =
    ["sdk/share/vulkan/registry/vk.xml", "/usr/local/share/vulkan/registry/vk.xml",
      "/usr/share/vulkan/registry/vk.xml"] := by
  decide +kernel

end LoadTiers.Environment
