import LoadTiers.Proofs.FileTree

/-! # Trees with the same places

Two trees in which files and directories stand at the same locations. A path leads to the same
location in both, or in both to none for the same reason, and the same paths can be written. An edit
of a file gives such a tree, and so does not matter to those that read other files.
-/

namespace LoadTiers

def FileNode.isFile : FileNode → Bool
  | file _ => true
  | directory => false

/-- A look at some paths shows the same in two views of files, and the path `out`, if there is one,
leads to the same location in two trees. -/
structure AgreeOn (d d' : Disk) (t t' : FileTree) (paths : List String) (out : Option String) :
    Prop where
  look_eq : ∀ path ∈ paths, d'.look path = d.look path
  target_eq : ∀ path, out = some path → t'.target path = t.target path

theorem AgreeOn.refl (d : Disk) (t : FileTree) (paths : List String) (out : Option String) :
    AgreeOn d d t t paths out :=
  ⟨fun _ _ => rfl, fun _ _ => rfl⟩

namespace FileTree

variable {t t' : FileTree} {l : Location} {path q content c : String}

/-- Files stand where files stand, and directories where directories stand, and relative paths start
at the same location. -/
structure Alike (t t' : FileTree) : Prop where
  isFile_eq : ∀ l, (t.node? l).map FileNode.isFile = (t'.node? l).map FileNode.isFile
  workingDirectory_eq : t.workingDirectory = t'.workingDirectory

theorem Alike.node?_eq_directory_iff (h : t.Alike t') (l : Location) :
    t.node? l = some .directory ↔ t'.node? l = some .directory := by
  have hd : ∀ {n : Option FileNode},
      n = some .directory ↔ n.map FileNode.isFile = some false := by
    rintro (- | - | -) <;> simp [FileNode.isFile]
  rw [hd, hd, h.isFile_eq l]

theorem Alike.follow_eq (h : t.Alike t') (l : Location) (steps : List String) :
    t.follow l steps = t'.follow l steps := by
  induction steps generalizing l with
  | nil => rfl
  | cons step steps ih =>
    have hl := h.isFile_eq l
    unfold follow
    cases hn : t.node? l with
    | none =>
      cases hn' : t'.node? l with
      | none => rfl
      | some n' => simp [hn, hn'] at hl
    | some n =>
      cases hn' : t'.node? l with
      | none => simp [hn, hn'] at hl
      | some n' =>
        rw [hn, hn'] at hl
        cases n <;> cases n' <;> simp [FileNode.isFile] at hl ⊢
        rw [ih]

theorem Alike.find_eq (h : t.Alike t') (path : String) : t.find path = t'.find path := by
  simp only [find, h.follow_eq, h.workingDirectory_eq]

theorem Alike.target_eq (h : t.Alike t') (path : String) : t.target path = t'.target path := by
  simp only [target, h.find_eq, h.node?_eq_directory_iff]

theorem look_congr (hf : t.find q = t'.find q)
    (hn : ∀ l, t.find q = .ok l → t.node? l = t'.node? l) : t.look q = t'.look q := by
  unfold look
  rw [← hf]
  cases h : t.find q with
  | error fault => rfl
  | ok l => simp only [hn l h]

section Edit

variable (hf : t.find path = .ok l) (hn : t.node? l = some (.file c))
include hf hn

theorem alike_put (content : String) : t.Alike (t.put l content) where
  isFile_eq m := by
    by_cases hm : m = l
    · rw [hm, hn, node?_put_self]
      rfl
    · rw [node?_put (rooted_of_find hf) hm]
  workingDirectory_eq := rfl

theorem look_put (content : String) (hq : t.find q ≠ .ok l) :
    (t.put l content).look q = t.look q := by
  have halike := alike_put hf hn content
  refine (look_congr (halike.find_eq q) fun m hm => ?_).symm
  rw [node?_put (rooted_of_find hf)]
  rintro rfl
  exact hq hm

/-- An edit does not matter to those that read elsewhere, wherever they write. -/
theorem agreeOn_put (content : String) {paths : List String}
    (hp : ∀ path ∈ paths, t.find path ≠ .ok l) (out : Option String) :
    AgreeOn t.disk (t.put l content).disk t (t.put l content) paths out where
  look_eq path h := look_put hf hn content (hp path h)
  target_eq path _ := ((alike_put hf hn content).target_eq path).symm

end Edit

end FileTree

end LoadTiers
