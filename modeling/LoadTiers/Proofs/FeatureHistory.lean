import LoadTiers.Proofs.FeatureOrder
import Mathlib.Data.List.Dedup
import Mathlib.Data.List.Induction

/-! # Histories of features

A set of features remembers the last feature of each kind and name that was inserted, and nothing
else. Lookups, lists, size and flavors follow from these last writes, and so does what an insertion
replaces.
-/

namespace LoadTiers

namespace Feature

/-- What a feature replaces another one by: whether it is an extension, and its name. -/
def key (f : Feature) : Bool × String := (f.isExtension, f.name)

inductive Below (f g : Feature) : Prop

  | major (h : f.version.major < g.version.major)

  | minor (hv : f.version.major = g.version.major) (h : f.version.minor < g.version.minor)

  | name (hv : f.version.major = g.version.major) (hm : f.version.minor = g.version.minor)
      (h : f.name < g.name)

theorem below_of_lt {f g : Feature} (h : f.version < g.version) : f.Below g := by
  rcases Version.lt_def.mp h with h | ⟨hv, h⟩
  · exact .major h
  · exact .minor hv h

end Feature

namespace FeatureSet

variable {s s' : FeatureSet} {l l' : List Feature} {f : Feature} {k : Bool × String} {n : String}

def get? (s : FeatureSet) : Bool × String → Option Feature
  | (true, n) => s.extension? n
  | (false, n) => s.apiVersion? n

theorem replaced_eq_get? (s : FeatureSet) (f : Feature) : s.replaced f = s.get? f.key := by
  unfold replaced Feature.key
  cases f.isExtension <;> rfl

theorem get?_insert (s : FeatureSet) (f : Feature) (k : Bool × String) :
    (s.insert f).get? k = if f.key = k then some f else s.get? k := by
  obtain ⟨isExtension, n⟩ := k
  unfold insert
  cases isExtension <;> by_cases hf : f.isExtension <;>
    simp [get?, apiVersion?, extension?, Feature.key, Roster.get?_insert, hf, eq_comm]

theorem ext_get? (h : ∀ k, s.get? k = s'.get? k) : s = s' := by
  obtain ⟨versions, extensions, _, _⟩ := s
  obtain ⟨versions', extensions', _, _⟩ := s'
  obtain rfl : versions = versions' := Roster.ext_get? fun n => h (false, n)
  obtain rfl : extensions = extensions' := Roster.ext_get? fun n => h (true, n)
  rfl

def ofHistory (l : List Feature) : FeatureSet := l.foldl insert ∅

theorem ofHistory_concat (l : List Feature) (f : Feature) :
    ofHistory (l ++ [f]) = (ofHistory l).insert f := by
  rw [ofHistory, List.foldl_append]
  rfl

def last? (l : List Feature) (k : Bool × String) : Option Feature :=
  l.reverse.find? fun f => f.key == k

theorem last?_concat (l : List Feature) (f : Feature) (k : Bool × String) :
    last? (l ++ [f]) k = if f.key = k then some f else last? l k := by
  unfold last?
  rw [List.reverse_append, List.reverse_singleton, List.singleton_append]
  by_cases h : f.key = k
  · rw [List.find?_cons_of_pos (by simpa using h), if_pos h]
  · rw [List.find?_cons_of_neg (by simpa using h), if_neg h]

theorem isSome_last?_iff : (last? l k).isSome ↔ k ∈ l.map Feature.key := by
  simp [last?]

theorem get?_ofHistory (l : List Feature) (k : Bool × String) :
    (ofHistory l).get? k = last? l k := by
  induction l using List.reverseRecOn with
  | nil =>
    obtain ⟨isExtension, n⟩ := k
    cases isExtension <;> rfl
  | append_singleton l f ih => rw [ofHistory_concat, get?_insert, last?_concat, ih]

def keys (s : FeatureSet) : List (Bool × String) :=
  s.versions.names.map (false, ·) ++ s.extensionRoster.names.map (true, ·)

theorem mem_keys_iff : k ∈ s.keys ↔ (s.get? k).isSome := by
  obtain ⟨isExtension, n⟩ := k
  have hv : (s.apiVersion? n).isSome ↔ n ∈ s.versions.names := Roster.contains_iff
  have hx : (s.extension? n).isSome ↔ n ∈ s.extensionRoster.names := Roster.contains_iff
  cases isExtension <;> simp [keys, get?, hv, hx]

theorem nodup_keys (s : FeatureSet) : s.keys.Nodup := by
  have hinj : ∀ b : Bool, Function.Injective fun n : String => (b, n) := fun b _ _ h =>
    (Prod.mk.inj h).2
  refine List.nodup_append.mpr ⟨s.versions.nodup_names.map (hinj false),
    s.extensionRoster.nodup_names.map (hinj true), ?_⟩
  intro k hk k' hk' h
  obtain ⟨n, -, rfl⟩ := List.mem_map.mp hk
  obtain ⟨n', -, rfl⟩ := List.mem_map.mp hk'
  cases h

theorem size_eq_length_keys (s : FeatureSet) : s.size = s.keys.length := by
  simp [size, keys, Roster.size, Roster.names]

theorem size_ofHistory (l : List Feature) :
    (ofHistory l).size = (l.map Feature.key).dedup.length := by
  rw [size_eq_length_keys]
  refine List.Perm.length_eq ((List.perm_ext_iff_of_nodup (nodup_keys _) (List.nodup_dedup _)).mpr
    fun k => ?_)
  rw [mem_keys_iff, get?_ofHistory, isSome_last?_iff, List.mem_dedup]

theorem apiVersions_pairwise_below (s : FeatureSet) : s.apiVersions.Pairwise Feature.Below := by
  refine s.apiVersions_pairwise.imp_of_mem fun hf hg h => ?_
  cases h with
  | version _ _ h => exact Feature.below_of_lt h
  | versionName _ _ hv h => exact .name (congrArg _ hv) (congrArg _ hv) h
  | kind _ hk => simp [isExtension_of_mem_apiVersions hg] at hk
  | extensionName hk => simp [isExtension_of_mem_apiVersions hf] at hk

theorem nodup_apiVersions (s : FeatureSet) : s.apiVersions.Nodup :=
  (List.mergeSort_perm _ _).nodup_iff.mpr s.versions.nodup

theorem knowsFlavor_iff {flavor : String} :
    s.knowsFlavor flavor ↔ ∃ k f, s.get? k = some f ∧ flavor ∈ f.flavors := by
  simp only [knowsFlavor, Bool.or_eq_true, List.any_eq_true, Feature.supports, decide_eq_true_eq]
  constructor
  · rintro (⟨f, hf, hm⟩ | ⟨f, hf, hm⟩)
    · exact ⟨(false, f.name), f, Roster.get?_eq_some_iff.mpr ⟨hf, rfl⟩, hm⟩
    · exact ⟨(true, f.name), f, Roster.get?_eq_some_iff.mpr ⟨hf, rfl⟩, hm⟩
  · rintro ⟨⟨isExtension, n⟩, f, hf, hm⟩
    cases isExtension with
    | false => exact .inl ⟨f, (Roster.get?_eq_some_iff.mp hf).1, hm⟩
    | true => exact .inr ⟨f, (Roster.get?_eq_some_iff.mp hf).1, hm⟩

theorem ofHistory_eq_iff : ofHistory l' = ofHistory l ↔ ∀ k, last? l' k = last? l k := by
  constructor
  · intro h k
    rw [← get?_ofHistory, h, get?_ofHistory]
  · intro h
    refine ext_get? fun k => ?_
    rw [get?_ofHistory, get?_ofHistory, h]

/-- The last writes of a history decide what the set answers: by name and kind, in order, in number
and by flavor. An insertion gives back the write that it replaces. -/
theorem ofHistory_last_writes (l : List Feature) :
    (∀ n, (ofHistory l).apiVersion? n = last? l (false, n) ∧
      (ofHistory l).extension? n = last? l (true, n)) ∧
    (∀ f, ofHistory (l ++ [f]) = (ofHistory l).insert f ∧
      (ofHistory l).replaced f = last? l f.key) ∧
    (ofHistory l).size = (l.map Feature.key).dedup.length ∧
    ((ofHistory l).apiVersions.Pairwise Feature.Below ∧ (ofHistory l).apiVersions.Nodup ∧
      ∀ f, f ∈ (ofHistory l).apiVersions ↔ last? l (false, f.name) = some f) ∧
    ((ofHistory l).extensions.Pairwise (fun f g => f.name < g.name) ∧
      (ofHistory l).extensions.Nodup ∧
      ∀ f, f ∈ (ofHistory l).extensions ↔ last? l (true, f.name) = some f) ∧
    (∀ flavor, (ofHistory l).knowsFlavor flavor ↔
      ∃ k f, last? l k = some f ∧ flavor ∈ f.flavors) ∧
    ∀ l', ofHistory l' = ofHistory l ↔ ∀ k, last? l' k = last? l k := by
  refine ⟨fun n => ⟨get?_ofHistory l (false, n), get?_ofHistory l (true, n)⟩,
    fun f => ⟨ofHistory_concat l f, ?_⟩, size_ofHistory l,
    ⟨apiVersions_pairwise_below _, nodup_apiVersions _, fun f => ?_⟩,
    ⟨(ofHistory l).extensionRoster.sorted, (ofHistory l).extensionRoster.nodup, fun f => ?_⟩,
    fun flavor => ?_, fun l' => ofHistory_eq_iff⟩
  · rw [replaced_eq_get?, get?_ofHistory]
  · rw [mem_apiVersions, ← get?_ofHistory]
    rfl
  · rw [mem_extensions, ← get?_ofHistory]
    rfl
  · simp only [knowsFlavor_iff, get?_ofHistory]

/-- A flavor is forgotten with the only feature that supports it. -/
example : (ofHistory
    [{ name := "VK_VERSION_1_0", kind := .apiVersion, flavors := .ofList ["vulkansc"] },
      { name := "VK_VERSION_1_0", kind := .apiVersion, flavors := .ofList ["vulkan"] }]).knowsFlavor
        "vulkansc" = false := by
  decide

end FeatureSet

end LoadTiers
