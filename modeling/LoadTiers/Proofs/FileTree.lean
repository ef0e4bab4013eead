import LoadTiers.FileTree
import LoadTiers.Proofs.First

/-! # Writing into a file tree

A written file changes what stands at its own place only. The directories above it are there before,
since a path is followed from one directory to the next.
-/

namespace LoadTiers.FileTree

variable {t t' : FileTree} {l m : Location} {steps : List String} {path content : String}

theorem read_eq_ok_iff : t.read path = .ok content ↔
    ∃ l, t.find path = .ok l ∧ t.node? l = some (.file content) ∧ ¬ namesDirectory path := by
  have hlook : t.read path = (t.look path).content := rfl
  rw [hlook, Sight.content_eq_ok_iff, look]
  cases hf : t.find path with
  | error fault => simp
  | ok l =>
    cases hn : t.node? l with
    | none => simp [hn]
    | some node =>
      cases node with
      | directory => simp [hn]
      | file c => by_cases hd : namesDirectory path <;> simp [hn, hd]

theorem lookup_put (t : FileTree) (content : String) (h : m ≠ l) :
    (t.put l content).files.lookup m = t.files.lookup m := by
  have hm : (m == l) = false := by simpa using h
  rw [put, List.lookup_cons, hm]
  exact lookup_filter_ne h t.files

theorem node?_put_self (t : FileTree) (l : Location) (content : String) :
    (t.put l content).node? l = some (.file content) := by
  simp [node?, put]

def Rooted (t : FileTree) (l : Location) : Prop := ∀ m, m <+: l → m ≠ l → (t.node? m).isSome

theorem Rooted.dropLast (h : t.Rooted l) : t.Rooted l.dropLast := by
  intro m hm hne
  refine h m (hm.trans l.dropLast_prefix) ?_
  rintro rfl
  have hlen := hm.length_le
  rw [List.length_dropLast] at hlen
  have hnil : m = [] := List.eq_nil_of_length_eq_zero (by omega)
  exact hne (by rw [hnil]; rfl)

theorem Rooted.concat (h : t.Rooted l) (hl : (t.node? l).isSome) (name : String) :
    t.Rooted (l ++ [name]) := by
  intro m hm hne
  rcases List.prefix_concat_iff.mp hm with rfl | hm
  · exact absurd rfl hne
  · by_cases he : m = l
    · rwa [he]
    · exact h m hm he

theorem Rooted.enter (h : t.Rooted l) (hl : (t.node? l).isSome) (step : String) :
    t.Rooted (l.enter step) := by
  unfold Location.enter
  split
  · exact h
  · exact h.dropLast
  · exact h.concat hl _

theorem rooted_workingDirectory (t : FileTree) : t.Rooted t.workingDirectory := by
  intro m hm _
  have hd : t.hasDirectory m := by simp [hasDirectory, hm]
  unfold node?
  cases t.files.lookup m <;> simp [hd]

theorem rooted_of_follow (h : t.Rooted l) (hf : t.follow l steps = .ok m) : t.Rooted m := by
  induction steps generalizing l with
  | nil =>
    obtain rfl := Except.ok.inj hf
    exact h
  | cons step steps ih =>
    unfold follow at hf
    split at hf
    · cases hf
    · cases hf
    · next hd =>
      split at hf
      · cases hf
      · exact ih (h.enter (by rw [hd]; rfl) step) hf

theorem find_eq_ok_iff : t.find path = .ok l ↔
    ('\x00' ∉ path.toList ∧ path.utf8ByteSize ≤ maxPathSize ∧ path ≠ "") ∧
      t.follow (if Path.isAbsolute path then [] else t.workingDirectory)
        ((Text.splitOn '/' path).filter (· ≠ "")) = .ok l := by
  unfold find
  split
  · next h => simp [h]
  · next h =>
    split
    · next h' => simp [Nat.not_le.mpr h']
    · next h' =>
      split
      · next he => simp [he]
      · next he => simp [h, Nat.not_lt.mp h', he]

theorem rooted_of_find (h : t.find path = .ok l) : t.Rooted l := by
  refine rooted_of_follow ?_ (find_eq_ok_iff.mp h).2
  split
  · intro m hm hne
    exact absurd (List.prefix_nil.mp hm) hne
  · exact t.rooted_workingDirectory

theorem any_isPrefixOf_put (h : ¬ m <+: l) :
    ((t.put l content).files.any fun f => m.isPrefixOf f.1) =
      t.files.any fun f => m.isPrefixOf f.1 := by
  rw [put, List.any_cons, List.any_filter]
  have hl : m.isPrefixOf l = false := by
    rw [Bool.eq_false_iff, ne_eq, List.isPrefixOf_iff_prefix]
    exact h
  rw [hl, Bool.false_or]
  refine List.any_congr rfl fun f => ?_
  by_cases hf : f.1 = l
  · simp [hf, hl]
  · simp [hf]

theorem hasDirectory_put (h : ¬ m <+: l) :
    (t.put l content).hasDirectory m = t.hasDirectory m := by
  unfold hasDirectory
  rw [any_isPrefixOf_put h]
  rfl

/-- A file at a location above which something stands changes nothing else. -/
theorem node?_put (hr : t.Rooted l) (hne : m ≠ l) : (t.put l content).node? m = t.node? m := by
  unfold node?
  rw [lookup_put t content hne]
  cases hlook : t.files.lookup m with
  | some c => rfl
  | none =>
    by_cases hm : m <+: l
    · -- a directory above the file, and there before
      have hd : t.hasDirectory m := by
        have hsome := hr m hm hne
        unfold node? at hsome
        simpa [hlook] using hsome
      have hd' : (t.put l content).hasDirectory m := by simp [hasDirectory, put, hm]
      simp [hd, hd']
    · simp only [hasDirectory_put hm]

/-- What a search meets on its way are directories, so that it finds the same in a tree with the
same nodes at all locations but one that is no directory. -/
theorem follow_congr {q : Location} (hn : ∀ m, m ≠ l → t'.node? m = t.node? m)
    (hl : t.node? l ≠ some .directory) (hf : t.follow m steps = .ok q) :
    t'.follow m steps = .ok q := by
  induction steps generalizing m with
  | nil => exact hf
  | cons step steps ih =>
    unfold follow at hf ⊢
    split at hf
    · cases hf
    · cases hf
    · next hd =>
      have hm : m ≠ l := fun h => hl (h ▸ hd)
      rw [hn m hm, hd]
      split at hf
      · cases hf
      · next hs =>
        simp only [hs, if_false]
        exact ih hf

theorem target_eq_ok_iff : t.target path = .ok l ↔
    t.find path = .ok l ∧ ¬ namesDirectory path ∧ t.node? l ≠ some .directory := by
  unfold target
  cases t.find path with
  | error fault => simp
  | ok m =>
    by_cases h : namesDirectory path ∨ t.node? m = some .directory
    · have hl : m = l → ¬ (¬ namesDirectory path ∧ t.node? l ≠ some .directory) := by
        rintro rfl ⟨hd, hn⟩
        exact h.elim hd hn
      simpa [h] using hl
    · obtain ⟨hd, hn⟩ := not_or.mp h
      simp only [ok_bind, h, if_false, Except.ok.injEq]
      exact ⟨fun hl => ⟨hl, hd, hl ▸ hn⟩, fun hl => hl.1⟩

theorem write_eq_ok_iff : t.write path content = .ok t' ↔
    ∃ l, t.target path = .ok l ∧ t.put l content = t' := by
  unfold write
  cases t.target path <;> simp [Except.map]

/-- After a write the file is there, and all other locations have what they had. -/
theorem write_spec (h : t.write path content = .ok t') : ∃ l, t.find path = .ok l ∧
    t'.read path = .ok content ∧ ∀ m, m ≠ l → t'.node? m = t.node? m := by
  obtain ⟨l, htarget, rfl⟩ := write_eq_ok_iff.mp h
  obtain ⟨hf, hd, hn⟩ := target_eq_ok_iff.mp htarget
  have hframe : ∀ m, m ≠ l → (t.put l content).node? m = t.node? m := fun m =>
    node?_put (rooted_of_find hf)
  have hf' : (t.put l content).find path = .ok l := by
    obtain ⟨hpath, hfollow⟩ := find_eq_ok_iff.mp hf
    exact find_eq_ok_iff.mpr ⟨hpath, follow_congr hframe hn hfollow⟩
  exact ⟨l, hf, read_eq_ok_iff.mpr ⟨l, hf', node?_put_self t l content, hd⟩, hframe⟩

end LoadTiers.FileTree
