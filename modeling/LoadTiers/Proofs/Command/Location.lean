import LoadTiers.Proofs.Command.Flags
import LoadTiers.Proofs.Environment
import LoadTiers.Proofs.Json.Printed

/-! # Where the registry is

A search for the registry predicts what the commands that need it do, if they are given the same
source. They read the file that the search shows, and fail for the cause for which it fails. Only a
resolution may have another cause before that: it looks at its request first.
-/

namespace LoadTiers

variable {s : Source} {x : Setting} {t : FileTree} {config : Config} {c : Command}
  {o : ResolveOptions} {p : Plan} {f : Failure} {json : Bool} {path : String}

theorem Config.load_eq_error_iff {d : Disk} : load d path = .error f ↔
    (∃ fault, d.read path = .error fault ∧ .unreadable path fault = f) ∨
      ∃ text, d.read path = .ok text ∧ ofText? path text = none ∧ .badConfig path = f := by
  unfold load
  cases d.read path with
  | error fault => simp
  | ok text => cases h : ofText? path text <;> simp [h]

theorem Source.loadConfig_eq_error {d : Disk} (h : s.loadConfig d = .error f) :
    f.code = 1 ∧ ∀ searched, f ≠ .nothingFound searched := by
  have hload : ∃ file, Config.load d file = .error f := by
    unfold Source.loadConfig at h
    cases hc : s.config with
    | some file => exact ⟨file, by simpa only [hc] using h⟩
    | none =>
      rw [hc] at h
      by_cases hf : d.isFile Config.defaultPath
      · exact ⟨_, (if_pos hf).symm.trans h⟩
      · cases (if_neg hf).symm.trans h
  obtain ⟨file, hload⟩ := hload
  rcases Config.load_eq_error_iff.mp hload with ⟨fault, -, rfl⟩ | ⟨text, -, -, rfl⟩
  · exact ⟨rfl, nofun⟩
  · exact ⟨rfl, nofun⟩

namespace Command

def shows (c : Command) (x : Setting) (t : FileTree) : Outcome := ((c.plan x).perform t).1

theorem shows_of_plan_eq_fail (h : c.plan x = .fail f) (t : FileTree) :
    c.shows x t = { failure := some f } := by
  rw [shows, h]
  rfl

inductive Needs (s : Source) : Command → Prop

  | classify (names : List String) (json : Bool) : Needs s (.classify s names json)

  | resolve {o : ResolveOptions} (h : o.source = s) : Needs s (.resolve o)

/-- A configuration makes a request of what a command asks for. Classifications ask for nothing. -/
inductive Accepted (config : Config) : Command → Prop

  | classify (s : Source) (names : List String) (json : Bool) :
      Accepted config (.classify s names json)

  | resolve {o : ResolveOptions} {q : Request} (h : config.request o.toOverrides = .ok q) :
      Accepted config (.resolve o)

theorem Accepted.exists_request (h : Accepted config (.resolve o)) :
    ∃ q, config.request o.toOverrides = .ok q := by
  cases h with
  | resolve hq => exact ⟨_, hq⟩

/-- How the commands end that need the registry at `path`. What they show of a registry is about the
one in the content of that file. -/
inductive EndsAt (x : Setting) (config : Config) (path : String) : Command → Plan → Prop

  | refused {o : ResolveOptions} {err : RegistryError}
      (hq : config.request o.toOverrides = .error err) :
      EndsAt x config path (.resolve o) (.fail (.registry err))

  | unreadable {c : Command} {fault : FileFault} (hq : c.Accepted config)
      (hread : x.disk.read path = .error fault) :
      EndsAt x config path c (.fail (.unreadable path fault))

  | malformed {c : Command} {text : String} {err : RegistryError} (hq : c.Accepted config)
      (hread : x.disk.read path = .ok text)
      (hR : Registry.read text config.tierPolicy = .error err) :
      EndsAt x config path c (.fail (.registry err))

  | classified {s : Source} {names : List String} {json : Bool} {text : String} {R : Registry}
      (hread : x.disk.read path = .ok text)
      (hR : Registry.read text config.tierPolicy = .ok R) :
      EndsAt x config path (.classify s names json) (Classification.planOf R path names json)

  | resolved {o : ResolveOptions} {q : Request} {text : String} {R : Registry} {r : Resolution}
      (hq : config.request o.toOverrides = .ok q) (hread : x.disk.read path = .ok text)
      (hR : Registry.read text config.tierPolicy = .ok R) (hr : R.resolve q = .ok r) :
      EndsAt x config path (.resolve o)
        (o.planOf path r (o.report (o.facts x.now config R r) r))

theorem EndsAt.of_load_eq_error (hq : c.Accepted config)
    (h : Registry.load x.disk path config.tierPolicy = .error f) :
    EndsAt x config path c (.fail f) := by
  rcases Registry.load_eq_error_iff.mp h with ⟨fault, hread, rfl⟩ | ⟨text, err, hread, hR, rfl⟩
  · exact .unreadable hq hread
  · exact .malformed hq hread hR

section Located

variable (hc : s.loadConfig x.disk = .ok config)
  (hl : s.locate config x.disk x.environment = .ok path)
include hc hl

theorem endsAt_classify (names : List String) (json : Bool) :
    EndsAt x config path (.classify s names json) ((Command.classify s names json).plan x) := by
  simp only [plan, Classification.plan, hc, hl, ok_bind]
  cases hload : Registry.load x.disk path config.tierPolicy with
  | error f => exact .of_load_eq_error (.classify s names json) hload
  | ok R =>
    obtain ⟨text, hread, hR⟩ := Registry.load_eq_ok_iff.mp hload
    exact .classified hread hR

theorem endsAt_resolve (ho : o.source = s) :
    EndsAt x config path (.resolve o) ((Command.resolve o).plan x) := by
  subst ho
  simp only [plan, ResolveOptions.plan_eq hc, ResolveOptions.planWith, hl, ok_bind]
  cases hq : config.request o.toOverrides with
  | error err => exact .refused hq
  | ok q =>
    simp only [Except.mapError, ok_bind]
    cases hload : Registry.load x.disk path config.tierPolicy with
    | error f => exact .of_load_eq_error (.resolve hq) hload
    | ok R =>
      obtain ⟨text, hread, hR⟩ := Registry.load_eq_ok_iff.mp hload
      obtain ⟨r, hr⟩ := exists_resolve_of_read hR q
      simp only [ok_bind, hr]
      exact .resolved hq hread hR hr

theorem Needs.endsAt (hn : c.Needs s) : EndsAt x config path c (c.plan x) := by
  cases hn with
  | classify names json => exact endsAt_classify hc hl names json
  | resolve ho => exact endsAt_resolve hc hl ho

end Located

theorem failure_perform_planOf {r : Resolution} {text : String}
    (h : ((o.planOf path r text).perform t).1.failure = some f) :
    ∃ out fault, f = .unwritable out fault := by
  cases hout : o.out with
  | none =>
    simp only [ResolveOptions.planOf, hout, Plan.perform] at h
    cases h
  | some out =>
    simp only [ResolveOptions.planOf, hout, Plan.perform] at h
    cases hw : t.write out text with
    | ok t' =>
      simp only [hw] at h
      cases h
    | error fault =>
      simp only [hw] at h
      exact ⟨out, fault, (Option.some.inj h).symm⟩

/-- Such a command never misses the registry, and complains of no other file that it reads. -/
theorem EndsAt.failure (h : EndsAt x config path c p) (hf : (p.perform t).1.failure = some f) :
    (∀ searched, f ≠ .nothingFound searched) ∧ ∀ file fault, f = .unreadable file fault →
      file = path := by
  cases h with
  | refused hq =>
    obtain rfl := Option.some.inj hf
    exact ⟨nofun, nofun⟩
  | unreadable hq hread =>
    obtain rfl := Option.some.inj hf
    exact ⟨nofun, fun file fault h => (Failure.unreadable.inj h).1.symm⟩
  | malformed hq hread hR =>
    obtain rfl := Option.some.inj hf
    exact ⟨nofun, nofun⟩
  | classified hread hR =>
    obtain ⟨-, hu⟩ := Option.ite_none_left_eq_some.mp hf
    obtain rfl := Option.some.inj hu
    exact ⟨nofun, nofun⟩
  | resolved hq hread hR hr =>
    obtain ⟨out, fault, rfl⟩ := failure_perform_planOf hf
    exact ⟨nofun, nofun⟩

end Command

namespace Source

/-- The cause for which every command fails that needs the registry of a source. A resolution whose
request is invalid fails for that instead. -/
structure Blocks (s : Source) (x : Setting) (t : FileTree) (f : Failure) : Prop where
  shows (c : Command) (hn : c.Needs s)
    (hq : ∀ config, s.loadConfig x.disk = .ok config → c.Accepted config) :
    c.shows x t = { failure := some f }
  refused (o : ResolveOptions) (config : Config) (err : RegistryError) (ho : o.source = s)
    (hc : s.loadConfig x.disk = .ok config) (hq : config.request o.toOverrides = .error err) :
    (Command.resolve o).shows x t = { failure := some (.registry err) }

theorem shows_of_request_eq_error {err : RegistryError} (ho : o.source = s)
    (hc : s.loadConfig x.disk = .ok config) (hq : config.request o.toOverrides = .error err)
    (t : FileTree) : (Command.resolve o).shows x t = { failure := some (.registry err) } := by
  subst ho
  have hplan : o.plan x = .error (.registry err) := by
    rw [ResolveOptions.plan_eq hc, ResolveOptions.planWith, hq]
    rfl
  refine Command.shows_of_plan_eq_fail ?_ t
  simp only [Command.plan, hplan]

theorem blocks_of_loadConfig_eq_error (h : s.loadConfig x.disk = .error f) (t : FileTree) :
    s.Blocks x t f where
  shows c hn _ := by
    refine Command.shows_of_plan_eq_fail ?_ t
    cases hn with
    | classify names json => simp only [Command.plan, Classification.plan, h, error_bind]
    | resolve ho =>
      subst ho
      simp only [Command.plan, ResolveOptions.plan, h, error_bind]
  refused o config err _ hc _ := nomatch h.symm.trans hc

theorem blocks_of_locate_eq_error (hc : s.loadConfig x.disk = .ok config)
    (hl : s.locate config x.disk x.environment = .error f) (t : FileTree) : s.Blocks x t f where
  shows c hn haccepted := by
    refine Command.shows_of_plan_eq_fail ?_ t
    cases hn with
    | classify names json =>
      simp only [Command.plan, Classification.plan, hc, hl, ok_bind, error_bind]
    | resolve ho =>
      subst ho
      obtain ⟨q, hq⟩ := (haccepted config hc).exists_request
      simp only [Command.plan, ResolveOptions.plan, hc, hl, ok_bind, error_bind, hq,
        Except.mapError]
  refused o config err ho hc hq := shows_of_request_eq_error ho hc hq t

theorem blocks_of_read_eq_error {fault : FileFault} (hc : s.loadConfig x.disk = .ok config)
    (hl : s.locate config x.disk x.environment = .ok path)
    (hread : x.disk.read path = .error fault) (t : FileTree) :
    s.Blocks x t (.unreadable path fault) where
  shows c hn haccepted := by
    refine Command.shows_of_plan_eq_fail ?_ t
    have hend := hn.endsAt hc hl
    generalize c.plan x = p at hend ⊢
    cases hend with
    | refused hq =>
      obtain ⟨q, hq'⟩ := (haccepted config hc).exists_request
      cases hq.symm.trans hq'
    | unreadable _ hread' =>
      obtain rfl := Except.error.inj (hread.symm.trans hread')
      rfl
    | malformed _ hread' _ => cases hread.symm.trans hread'
    | classified hread' _ => cases hread.symm.trans hread'
    | resolved _ hread' _ _ => cases hread.symm.trans hread'
  refused o config err ho hc hq := shows_of_request_eq_error ho hc hq t

/-- The file that is to be the registry: what the command line says, else what the configuration
says, else the one of the first installation that has one. -/
inductive Points (s : Source) (config : Config) (x : Setting) : String → Prop

  | given {path : String} (h : s.spec = some path) : Points s config x path

  | configured {path : String} (hs : s.spec = none) (h : config.spec = some path) :
      Points s config x path

  | searched {i : Nat × String} (hs : s.spec = none) (hc : config.spec = none)
      (h : x.environment.FirstRegistry x.disk i) :
      Points s config x (Environment.registryBelow i)

theorem points_iff : s.Points config x path ↔ s.chosen? config = some path ∨
    s.chosen? config = none ∧ ∃ i, x.environment.FirstRegistry x.disk i ∧
      Environment.registryBelow i = path := by
  unfold chosen?
  rw [Option.or_eq_some_iff, Option.or_eq_none_iff]
  constructor
  · rintro (h | ⟨hs, h⟩ | ⟨hs, hc, h⟩)
    · exact .inl (.inl h)
    · exact .inl (.inr ⟨hs, h⟩)
    · exact .inr ⟨⟨hs, hc⟩, _, h, rfl⟩
  · rintro ((h | ⟨hs, h⟩) | ⟨⟨hs, hc⟩, i, h, rfl⟩)
    · exact .given h
    · exact .configured hs h
    · exact .searched hs hc h

theorem locate_eq_ok_iff :
    s.locate config x.disk x.environment = .ok path ↔ s.Points config x path := by
  rw [points_iff, ← Environment.find?_candidates_eq_some_iff]
  unfold locate
  cases s.chosen? config with
  | some q => simp
  | none => cases x.environment.candidates.find? x.disk.isFile <;> simp

theorem locate_eq_error_iff : s.locate config x.disk x.environment = .error f ↔
    (s.spec = none ∧ config.spec = none ∧ ∀ i, x.environment.Installs i →
      ¬ x.disk.isFile (Environment.registryBelow i)) ∧
    .nothingFound x.environment.candidates = f := by
  rw [← Environment.find?_candidates_eq_none_iff, ← and_assoc, ← Option.or_eq_none_iff]
  unfold locate chosen?
  cases s.spec.or config.spec with
  | some q => simp
  | none => cases x.environment.candidates.find? x.disk.isFile <;> simp

def finding (json : Bool) (path : String) (present : Bool) : String :=
  if json then (Json.obj [("exists", .bool present), ("path", .str path)]).pretty ++ "\n"
  else path ++ "\n"

theorem finding_ne_empty (present : Bool) : finding json path present ≠ "" := by
  cases json <;> simp [finding]

theorem path_eq_of_finding_eq {path' : String} {present present' : Bool}
    (h : finding json path present = finding json path' present') : path = path' := by
  cases json with
  | false => exact (String.append_left_inj _).mp h
  | true =>
    have hprinted := (String.append_left_inj "\n").mp h
    have hread := congrArg Json.ofText? hprinted
    rw [Json.ofText?_pretty rfl, Json.ofText?_pretty rfl] at hread
    simp only [Option.some.injEq, Json.obj.injEq, List.cons.injEq, Prod.mk.injEq,
      Json.str.injEq] at hread
    exact hread.2.1.2

def found (json : Bool) (path : String) (present : Bool) : Outcome where
  stdout := finding json path present
  failure := if present then none else some (.noRegistry path)

theorem code_found (present : Bool) :
    (found json path present).code = if present then 0 else 1 := by
  cases present <;> rfl

inductive Search (s : Source) (x : Setting) (json : Bool) : Outcome → Prop

  | unloaded {f : Failure} (hc : s.loadConfig x.disk = .error f) :
      Search s x json { failure := some f }

  | unlocated {config : Config} {f : Failure} (hc : s.loadConfig x.disk = .ok config)
      (hl : s.locate config x.disk x.environment = .error f) :
      Search s x json { failure := some f }

  | located {config : Config} {path : String} (hc : s.loadConfig x.disk = .ok config)
      (hl : s.locate config x.disk x.environment = .ok path) :
      Search s x json (found json path (x.disk.isFile path))

theorem shows_of_loadConfig (hc : s.loadConfig x.disk = .ok config) (json : Bool) (t : FileTree) :
    (Command.locate s json).shows x t =
      match s.locate config x.disk x.environment with
      | .ok path => found json path (x.disk.isFile path)
      | .error f => { failure := some f } := by
  rw [Command.shows, perform_of_output_eq_none (output_locate s json x)]
  simp only [Command.plan, Source.plan, hc, ok_bind]
  cases s.locate config x.disk x.environment <;> rfl

theorem search_shows (s : Source) (x : Setting) (json : Bool) (t : FileTree) :
    s.Search x json ((Command.locate s json).shows x t) := by
  cases hc : s.loadConfig x.disk with
  | error f =>
    have hplan : (Command.locate s json).plan x = .fail f := by
      simp only [Command.plan, Source.plan, hc, error_bind]
    rw [Command.shows_of_plan_eq_fail hplan]
    exact .unloaded hc
  | ok config =>
    rw [shows_of_loadConfig hc]
    cases hl : s.locate config x.disk x.environment with
    | error f => exact .unlocated hc hl
    | ok path => exact .located hc hl

def Prints (s : Source) (x : Setting) (t : FileTree) (json : Bool) (path : String)
    (code : UInt32) : Prop :=
  ∃ present, ((Command.locate s json).shows x t).stdout = finding json path present ∧
    ((Command.locate s json).shows x t).code = code

theorem prints_iff {code : UInt32} : s.Prints x t json path code ↔
    ∃ config, s.loadConfig x.disk = .ok config ∧ s.Points config x path ∧
      code = if x.disk.isFile path then 0 else 1 := by
  simp only [Prints, ← locate_eq_ok_iff]
  constructor
  · rintro ⟨present, hout, rfl⟩
    have hs := search_shows s x json t
    generalize (Command.locate s json).shows x t = shown at hs hout ⊢
    cases hs with
    | unloaded => exact absurd hout.symm (finding_ne_empty present)
    | unlocated => exact absurd hout.symm (finding_ne_empty present)
    | located hc hl =>
      obtain rfl := path_eq_of_finding_eq hout
      exact ⟨_, hc, hl, code_found _⟩
  · rintro ⟨config, hc, hl, rfl⟩
    rw [shows_of_loadConfig hc, hl]
    exact ⟨_, rfl, code_found _⟩

theorem blocks_of_failure (hf : ((Command.locate s json).shows x t).failure = some f)
    (h : s.loadConfig x.disk = .error f ∨ ∃ searched, f = .nothingFound searched) :
    f.code = 1 ∧ s.Blocks x t f := by
  rcases h with hc | ⟨searched, rfl⟩
  · exact ⟨(loadConfig_eq_error hc).1, blocks_of_loadConfig_eq_error hc t⟩
  · refine ⟨rfl, ?_⟩
    have hs := search_shows s x json t
    generalize (Command.locate s json).shows x t = shown at hs hf
    cases hs with
    | unloaded hc =>
      obtain rfl := Option.some.inj hf
      exact blocks_of_loadConfig_eq_error hc t
    | unlocated hc hl =>
      obtain rfl := Option.some.inj hf
      exact blocks_of_locate_eq_error hc hl t
    | located => cases (Option.ite_none_left_eq_some.mp hf).2

/-- A search that finds nothing has a configuration that says nothing, and no installation has a
registry. -/
theorem shows_nothingFound_iff :
    (Command.locate s json).shows x t =
        { failure := some (.nothingFound x.environment.candidates) } ↔
      ∃ config, s.loadConfig x.disk = .ok config ∧ s.spec = none ∧ config.spec = none ∧
        ∀ i, x.environment.Installs i → ¬ x.disk.isFile (Environment.registryBelow i) := by
  constructor
  · intro h
    have hs := search_shows s x json t
    generalize (Command.locate s json).shows x t = shown at hs h
    cases hs with
    | unloaded hc =>
      obtain rfl := Option.some.inj (congrArg Outcome.failure h)
      exact absurd rfl ((loadConfig_eq_error hc).2 _)
    | unlocated hc hl =>
      exact ⟨_, hc, (locate_eq_error_iff.mp hl).1⟩
    | located hc hl => exact absurd (congrArg Outcome.stdout h) (finding_ne_empty _)
  · rintro ⟨config, hc, hnone⟩
    rw [shows_of_loadConfig hc, locate_eq_error_iff.mpr ⟨hnone, rfl⟩]

theorem exists_fault_of_prints (h : s.Prints x t json path 1) :
    ∃ fault, x.disk.read path = .error fault ∧ s.Blocks x t (.unreadable path fault) := by
  obtain ⟨config, hc, hl, hcode⟩ := prints_iff.mp h
  cases hread : x.disk.read path with
  | ok text =>
    rw [Disk.isFile_of_read hread] at hcode
    cases hcode
  | error fault =>
    exact ⟨fault, rfl, blocks_of_read_eq_error hc (locate_eq_ok_iff.mpr hl) hread t⟩

/-- A search predicts what the commands do that need the registry of the same source. If it shows a
file, they read that file and complain of no other. If the configuration cannot be loaded, no file
is found, or the shown one is no file, then they fail for this cause, unless the request of a
resolution is invalid. The file is the given one, else the configured one, which is taken relative
to the configuration, else that of the first installation which has one. -/
theorem locate_predicts (s : Source) (x : Setting) (t : FileTree) (json : Bool) :
    (∀ args c, Command.ofArguments? args = some c →
      (runOn args x.disk t x.environment x.now).1 = c.shows x t) ∧
    (∀ path, s.Prints x t json path 0 → ∃ config, s.loadConfig x.disk = .ok config ∧
      ∀ c : Command, c.Needs s → c.EndsAt x config path (c.plan x) ∧
        ∀ f, (c.shows x t).failure = some f → (∀ searched, f ≠ .nothingFound searched) ∧
          ∀ file fault, f = .unreadable file fault → file = path) ∧
    (∀ f, ((Command.locate s json).shows x t).failure = some f →
      (s.loadConfig x.disk = .error f ∨ ∃ searched, f = .nothingFound searched) →
      f.code = 1 ∧ s.Blocks x t f) ∧
    (∀ path, s.Prints x t json path 1 → ∃ fault, x.disk.read path = .error fault ∧
      s.Blocks x t (.unreadable path fault)) ∧
    (∀ path code, s.Prints x t json path code ↔ ∃ config, s.loadConfig x.disk = .ok config ∧
      s.Points config x path ∧ code = if x.disk.isFile path then 0 else 1) ∧
    ((Command.locate s json).shows x t =
        { failure := some (.nothingFound x.environment.candidates) } ↔
      ∃ config, s.loadConfig x.disk = .ok config ∧ s.spec = none ∧ config.spec = none ∧
        ∀ i, x.environment.Installs i → ¬ x.disk.isFile (Environment.registryBelow i)) ∧
    ∀ (w : Config) q path, s.spec = none → w.WrittenOn x.disk (s.config.getD Config.defaultPath) →
      w.spec = some q → Anchored (s.config.getD Config.defaultPath) q path →
      ∃ code, s.Prints x t json path code := by
  refine ⟨?shown, ?found, fun f => blocks_of_failure, fun path => exists_fault_of_prints,
    fun path code => prints_iff, shows_nothingFound_iff, ?anchored⟩
  case shown =>
    intro args c h
    rw [runOn, h]
    rfl
  case found =>
    intro path h
    obtain ⟨config, hc, hl, -⟩ := prints_iff.mp h
    refine ⟨config, hc, fun c hn => ?_⟩
    have hend := hn.endsAt hc (locate_eq_ok_iff.mpr hl)
    exact ⟨hend, fun f hf => hend.failure hf⟩
  case anchored =>
    intro w q path hs hw hq hp
    exact ⟨_, prints_iff.mpr ⟨_, hw.loadConfig_eq, .configured hs (hp.spec_anchor hq), rfl⟩⟩

/-- A tree with a registry in an installation, and a configuration without the registry that it
says. -/
def installedTree : FileTree where
  files := [(["sdk", "share", "vulkan", "registry", "vk.xml"], Registry.orderedDocument),
    (["work", "lib", "vkfl.toml"], "spec = \"vk.xml\"\n")]
  workingDirectory := ["work"]

/-- A setting in which the installation is known, behind a blank directory. -/
def sdkSetting : Setting :=
  ⟨installedTree.disk, { sdk := some " ", sdkPath := some "/sdk" }, leapNoon⟩

def bareSetting : Setting := ⟨installedTree.disk, {}, leapNoon⟩

theorem loadConfig_installedTree : ({} : Source).loadConfig installedTree.disk = .ok {} := by
  decide +kernel

theorem points_sdkSetting :
    ({} : Source).Points {} sdkSetting "/sdk/share/vulkan/registry/vk.xml" := by
  rw [← locate_eq_ok_iff]
  decide +kernel

theorem points_nothing_bareSetting (i : Nat × String) (h : bareSetting.environment.Installs i) :
    ¬ bareSetting.disk.isFile (Environment.registryBelow i) := by
  cases h with
  | sdk h | sdkPath h | home h => cases h
  | siteWide => decide +kernel
  | system => decide +kernel

theorem written_installedTree :
    Config.WrittenOn { spec := some "vk.xml" } installedTree.disk "lib/vkfl.toml" :=
  ⟨"spec = \"vk.xml\"\n", by decide +kernel, by decide +kernel⟩

/-- Commands read the installed registry if it is found, and fail like the search if the configured
one or the configuration is missing or if nothing is found, except for an invalid request. -/
theorem locate_predicts_installedTree :
    (({} : Source).Prints sdkSetting installedTree false "/sdk/share/vulkan/registry/vk.xml" 0 ∧
      ∃ config, ∀ c : Command, c.Needs {} →
        c.EndsAt sdkSetting config "/sdk/share/vulkan/registry/vk.xml" (c.plan sdkSetting)) ∧
    (({ config := some "lib/vkfl.toml" } : Source).Prints sdkSetting installedTree true
        "lib/vk.xml" 1 ∧
      ({ config := some "lib/vkfl.toml" } : Source).Blocks sdkSetting installedTree
        (.unreadable "lib/vk.xml" .missing)) ∧
    ({ config := some "none.toml" } : Source).Blocks sdkSetting installedTree
      (.unreadable "none.toml" .missing) ∧
    ({} : Source).Blocks bareSetting installedTree
      (.nothingFound bareSetting.environment.candidates) ∧
    (run ["resolve", "--api", "1.x"] installedTree {} leapNoon).1 =
      { failure := some (.registry (.unknownVersionFormat "1.x")) } := by
  refine ⟨?found, ?configured, ?unloaded, ?nothing⟩
  case found =>
    obtain ⟨-, hfound, -, -, hprints, -, -⟩ := locate_predicts {} sdkSetting installedTree false
    have hp := (hprints _ 0).mpr
      ⟨{}, loadConfig_installedTree, points_sdkSetting, by decide +kernel⟩
    obtain ⟨config, -, h⟩ := hfound _ hp
    exact ⟨hp, config, fun c hn => (h c hn).1⟩
  case configured =>
    obtain ⟨-, -, -, habsent, hprints, -, hanchored⟩ :=
      locate_predicts { config := some "lib/vkfl.toml" } sdkSetting installedTree true
    have hplace : Anchored "lib/vkfl.toml" "vk.xml" "lib/vk.xml" :=
      .within "lib" (by decide +kernel)
    obtain ⟨code, hp⟩ := hanchored _ _ _ rfl written_installedTree rfl hplace
    obtain ⟨-, -, -, rfl⟩ := (hprints _ _).mp hp
    obtain ⟨fault, hread, hblocks⟩ := habsent _ hp
    have hmissing : sdkSetting.disk.read "lib/vk.xml" = .error .missing := by decide +kernel
    obtain rfl := Except.error.inj (hread.symm.trans hmissing)
    exact ⟨hp, hblocks⟩
  case unloaded =>
    obtain ⟨-, -, hfails, -⟩ :=
      locate_predicts { config := some "none.toml" } sdkSetting installedTree false
    exact (hfails _ (by decide +kernel) (.inl (by decide +kernel))).2
  case nothing =>
    obtain ⟨hshown, -, hfails, -, -, hnothing, -⟩ :=
      locate_predicts {} bareSetting installedTree false
    have hnone := hnothing.mpr ⟨{}, loadConfig_installedTree, rfl, rfl, points_nothing_bareSetting⟩
    have hblocks := (hfails _ (congrArg Outcome.failure hnone) (.inr ⟨_, rfl⟩)).2
    refine ⟨hblocks, ?_⟩
    have hargs : Command.ofArguments? ["resolve", "--api", "1.x"] =
        some (.resolve { api := some "1.x" }) := by decide +kernel
    have hrefused := hblocks.refused { api := some "1.x" } {} (.unknownVersionFormat "1.x") rfl
      loadConfig_installedTree (by decide +kernel)
    exact (hshown _ _ hargs).trans hrefused

end Source

end LoadTiers
