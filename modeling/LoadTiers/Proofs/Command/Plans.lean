import LoadTiers.Command.Run
import LoadTiers.Proofs.FileTree
import LoadTiers.Proofs.Markup.Order

/-! # What commands read

The commands that need a registry read the same configuration and the same registry from a source.
-/

namespace LoadTiers

variable {x : Setting} {s : Source} {p : Plan} {text n : String} {policy : TierPolicy}
  {R : Registry}

theorem mapError_eq_ok_iff {ε ε' α : Type} {f : ε → ε'} {e : Except ε α} {a : α} :
    e.mapError f = .ok a ↔ e = .ok a := by
  cases e <;> simp [Except.mapError]

theorem mapError_eq_error_iff {ε ε' α : Type} {f : ε → ε'} {e : Except ε α} {b : ε'} :
    e.mapError f = .error b ↔ ∃ a, e = .error a ∧ f a = b := by
  cases e <;> simp [Except.mapError]

namespace Registry

theorem load_eq_ok_iff {d : Disk} {path : String} : load d path policy = .ok R ↔
    ∃ text, d.read path = .ok text ∧ read text policy = .ok R := by
  unfold load
  cases d.read path <;> simp [mapError_eq_ok_iff]

theorem load_eq_error_iff {d : Disk} {path : String} {f : Failure} :
    load d path policy = .error f ↔
      (∃ fault, d.read path = .error fault ∧ .unreadable path fault = f) ∨
        ∃ text err, d.read path = .ok text ∧ read text policy = .error err ∧
          .registry err = f := by
  unfold load
  cases d.read path <;> simp [mapError_eq_error_iff]

end Registry

/-- What a source leads to: a configuration, the place and text of a registry, and the registry. -/
structure Source.Reads (s : Source) (x : Setting) (c : Config) (path text : String)
    (R : Registry) : Prop where
  config : s.loadConfig x.disk = .ok c
  located : s.locate c x.disk x.environment = .ok path
  content : x.disk.read path = .ok text
  registry : Registry.read text c.tierPolicy = .ok R

theorem Source.Reads.unique {c c' : Config} {path path' text text' : String} {R R' : Registry}
    (h : s.Reads x c path text R) (h' : s.Reads x c' path' text' R') :
    c = c' ∧ path = path' ∧ text = text' ∧ R = R' := by
  obtain rfl := Except.ok.inj (h.config.symm.trans h'.config)
  obtain rfl := Except.ok.inj (h.located.symm.trans h'.located)
  obtain rfl := Except.ok.inj (h.content.symm.trans h'.content)
  obtain rfl := Except.ok.inj (h.registry.symm.trans h'.registry)
  exact ⟨rfl, rfl, rfl, rfl⟩

def Classification.planOf (R : Registry) (path : String) (names : List String) (json : Bool) :
    Plan where
  stdout :=
    if json then (toJson R path names).pretty ++ "\n"
    else String.join (names.map (line R · ++ "\n"))
  failure := if unknown R names = [] then none else some (.unknownEntryPoints (unknown R names))

theorem Classification.plan_eq_ok_iff {names : List String} {json : Bool} :
    plan s names json x = .ok p ↔
      ∃ c path text R, s.Reads x c path text R ∧ planOf R path names json = p := by
  simp only [plan, bind_eq_ok_iff, Registry.load_eq_ok_iff]
  constructor
  · rintro ⟨c, hc, path, hl, R, ⟨text, ht, hr⟩, hp⟩
    exact ⟨c, path, text, R, ⟨hc, hl, ht, hr⟩, Except.ok.inj hp⟩
  · rintro ⟨c, path, text, R, ⟨hc, hl, ht, hr⟩, hp⟩
    exact ⟨c, hc, path, hl, R, ⟨text, ht, hr⟩, congrArg _ hp⟩

namespace ResolveOptions

variable {o : ResolveOptions}

def facts (o : ResolveOptions) (now : Timestamp) (c : Config) (R : Registry) (r : Resolution) :
    Facts :=
  { Facts.derive R r with
    includeDisabled := c.reportsDisabled && !o.noDisabled
    generatedAt := some now }

def planOf (o : ResolveOptions) (path : String) (r : Resolution) (text : String) : Plan :=
  match o.out with
  | some out => { log := r.log, warnings := r.warnings path, output := some (out, text) }
  | none => { log := r.log, warnings := r.warnings path, stdout := endLine text }

theorem plan_eq_ok_iff : o.plan x = .ok p ↔ ∃ c q path text R r,
    c.request o.toOverrides = .ok q ∧ o.source.Reads x c path text R ∧ R.resolve q = .ok r ∧
      o.planOf path r (o.report (o.facts x.now c R r) r) = p := by
  simp only [plan, bind_eq_ok_iff, Registry.load_eq_ok_iff, mapError_eq_ok_iff]
  constructor
  · rintro ⟨c, hc, q, hq, path, hl, R, ⟨text, ht, hR⟩, r, hr, hp⟩
    exact ⟨c, q, path, text, R, r, hq, ⟨hc, hl, ht, hR⟩, hr, Except.ok.inj hp⟩
  · rintro ⟨c, q, path, text, R, r, hq, ⟨hc, hl, ht, hR⟩, hr, hp⟩
    exact ⟨c, hc, q, hq, path, hl, R, ⟨text, ht, hR⟩, r, hr, congrArg _ hp⟩

end ResolveOptions

/-- A tree with a registry in the working directory, beside which there is an empty directory. -/
def registryTree : FileTree where
  files := [(["work", "vk.xml"], Registry.orderedDocument)]
  directories := [["out"]]
  workingDirectory := ["work"]

def leapNoon : Timestamp := ⟨⟨2024, 2, 29, 12, 0, 0, 0⟩, by decide⟩

def registrySetting : Setting := ⟨registryTree.disk, {}, leapNoon⟩

def registrySource : Source := { spec := some "vk.xml" }

theorem find_registryTree : registryTree.find "vk.xml" = .ok ["work", "vk.xml"] := by
  decide +kernel

theorem loadConfig_registrySource : registrySource.loadConfig registryTree.disk = .ok {} := by
  have h : registryTree.disk.isFile Config.defaultPath = false := by
    decide +kernel
  rw [Source.loadConfig]
  simp [registrySource, h]

theorem read_registryTree : registryTree.disk.read "vk.xml" = .ok Registry.orderedDocument :=
  FileTree.read_eq_ok_iff.mpr ⟨_, find_registryTree, rfl, by decide⟩

theorem exists_reads_registrySource : ∃ R,
    registrySource.Reads registrySetting {} "vk.xml" Registry.orderedDocument R := by
  obtain ⟨R, hR⟩ := Registry.exists_read_orderedDocument
  exact ⟨R, loadConfig_registrySource, rfl, read_registryTree, hR⟩

end LoadTiers
