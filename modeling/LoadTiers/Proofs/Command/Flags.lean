import LoadTiers.Proofs.Command.Effect
import LoadTiers.Proofs.Path

/-! # Flags and configurations

What the flags of a resolution say can be said in its configuration. Both come to one configuration,
and a run depends on nothing else that they say.
-/

namespace LoadTiers

variable {o o' : ResolveOptions} {c c' w : Config} {d d' : Disk} {t t' : FileTree}
  {e : Environment} {now : Timestamp} {rest rest' : List String} {path s : String}

namespace ResolveOptions

/-- The configuration with what the flags say in the place of its values. -/
def configured (o : ResolveOptions) (c : Config) : Config :=
  { c with
    spec := o.source.spec.or c.spec
    flavor := o.flavor.or c.flavor
    api := o.api.or c.api
    extensions := (o.extensions.map .text).or c.extensions
    generateDisabled := if o.noDisabled then some false else c.generateDisabled }

/-- The resolution by the configuration in a file, without a flag that says what a configuration can
say. -/
def unflagged (o : ResolveOptions) (file : Option String) : ResolveOptions where
  source := { config := file }
  out := o.out
  json := o.json

theorem request_configured (o : ResolveOptions) (c : Config) (file : Option String) :
    (o.configured c).request (o.unflagged file).toOverrides = c.request o.toOverrides := by
  have he : ((o.extensions.map ExtensionList.text).or c.extensions).map (·.selection) =
      (o.extensions.map .ofText).or (c.extensions.map (·.selection)) := by
    cases o.extensions <;> rfl
  simp only [Config.request, configured, unflagged, Option.none_or, Option.map_none, he]

theorem chosen?_configured (o : ResolveOptions) (c : Config) (file : Option String) :
    (o.unflagged file).source.chosen? (o.configured c) = o.source.chosen? c := rfl

theorem facts_configured (o : ResolveOptions) (c : Config) (file : Option String)
    (now : Timestamp) (R : Registry) (r : Resolution) :
    (o.unflagged file).facts now (o.configured c) R r = o.facts now c R r := by
  have hd : ((o.configured c).reportsDisabled && !(o.unflagged file).noDisabled) =
      (c.reportsDisabled && !o.noDisabled) := by
    cases hn : o.noDisabled <;> simp [configured, unflagged, Config.reportsDisabled, hn]
  simp only [facts, hd]

theorem planWith_configured (o : ResolveOptions) (c : Config) (file : Option String)
    (x : Setting) : (o.unflagged file).planWith (o.configured c) x = o.planWith c x := by
  simp only [planWith, request_configured, facts_configured, Source.locate, chosen?_configured]
  rfl

theorem planWith_congr (hc : o'.configured c' = o.configured c) (hout : o'.out = o.out)
    (hjson : o'.json = o.json)
    (hlook : ∀ path ∈ o.source.candidates c e, d'.look path = d.look path) :
    o'.planWith c' ⟨d', e, now⟩ = o.planWith c ⟨d, e, now⟩ := by
  have hu : o'.unflagged none = o.unflagged none := by
    rw [unflagged, unflagged, hout, hjson]
  calc o'.planWith c' ⟨d', e, now⟩
      = (o'.unflagged none).planWith (o'.configured c') ⟨d', e, now⟩ :=
        (planWith_configured o' c' none _).symm
    _ = (o.unflagged none).planWith (o.configured c) ⟨d', e, now⟩ := by rw [hu, hc]
    _ = o.planWith c ⟨d', e, now⟩ := planWith_configured o c none _
    _ = o.planWith c ⟨d, e, now⟩ := planWith_disk hlook

theorem configured_configured (o : ResolveOptions) (c : Config) (file : Option String) :
    (o.unflagged file).configured (o.configured c) = o.configured c := rfl

end ResolveOptions

theorem Asks.sameEffect (h : Asks rest d o c) (h' : Asks rest' d' o' c')
    (hc : o'.configured c' = o.configured c) (hout : o'.out = o.out) (hjson : o'.json = o.json)
    (hs : AgreeOn d d' t t' (o.source.candidates c e) o.out) :
    SameEffect o.out t t' (runOn ("resolve" :: rest) d t e now)
      (runOn ("resolve" :: rest') d' t' e now) := by
  have hplan : o'.planWith c' ⟨d', e, now⟩ = o.planWith c ⟨d, e, now⟩ :=
    ResolveOptions.planWith_congr hc hout hjson hs.look_eq
  exact h.sameEffect_of_planWith h' hs.target_eq hplan

namespace Command

def configurable : List String := ["--spec", "--api", "--extensions", "--flavor", "--no-disabled"]

theorem resolveOptions_without (p : Arguments) : resolveOptions (p.without configurable) =
    (resolveOptions p).unflagged (resolveOptions p).source.config := by
  have hgone : ∀ k ∈ configurable, (p.without configurable).values.lookup k = none := fun k hk =>
    p.lookup_without_of_mem hk
  have hkept : ∀ k, k ∉ configurable →
      (p.without configurable).values.lookup k = p.values.lookup k := fun k hk =>
    p.lookup_without hk
  have hdisabled : "--no-disabled" ∉ (p.without configurable).flags := fun h =>
    (Arguments.mem_flags_without.mp h).2 (by decide)
  have hjson : "--json" ∈ (p.without configurable).flags ↔ "--json" ∈ p.flags :=
    Arguments.mem_flags_without.trans (and_iff_left (by decide))
  simp only [resolveOptions, Arguments.source, ResolveOptions.unflagged, hdisabled, hjson,
    hgone "--spec" (by decide), hgone "--api" (by decide), hgone "--extensions" (by decide),
    hgone "--flavor" (by decide), hkept "--config" (by decide), hkept "--out" (by decide)]
  rfl

theorem exists_unflagged (h : ofArguments? ("resolve" :: rest) = some (.resolve o)) :
    ∃ rest', rest'.Sublist rest ∧
      ofArguments? ("resolve" :: rest') = some (.resolve (o.unflagged o.source.config)) := by
  rw [ofArguments?_resolve] at h
  obtain ⟨p, hp, ho⟩ := Option.map_eq_some_iff.mp h
  obtain rfl := Command.resolve.inj ho
  obtain ⟨rest', hsub, hr⟩ := Arguments.exists_read_without hp configurable
  refine ⟨rest', hsub, ?_⟩
  rw [ofArguments?_resolve, hr, Option.map_some, resolveOptions_without]

theorem resolveOptions_after {p : Arguments} (h : p.values.lookup "--spec" = none)
    (q : String) : resolveOptions (p.after "--spec" q) =
      { resolveOptions p with source.spec := some q } := by
  have hother : ∀ k, k ≠ "--spec" → (p.after "--spec" q).values.lookup k = p.values.lookup k := by
    intro k hk
    rw [Arguments.lookup_after, if_neg hk, Option.or_none]
  have hspec : (p.after "--spec" q).values.lookup "--spec" = some q := by
    rw [Arguments.lookup_after, h, if_pos rfl, Option.none_or]
  simp only [resolveOptions, Arguments.source, hspec, hother "--flavor" (by decide),
    hother "--api" (by decide), hother "--extensions" (by decide), hother "--config" (by decide),
    hother "--out" (by decide)]
  rfl

theorem ofArguments?_spec (h : ofArguments? ("resolve" :: rest) = some (.resolve o))
    (hs : o.source.spec = none) (q : String) :
    ofArguments? ("resolve" :: ("--spec=" ++ q) :: rest) =
      some (.resolve { o with source.spec := some q }) := by
  rw [ofArguments?_resolve] at h
  obtain ⟨p, hp, ho⟩ := Option.map_eq_some_iff.mp h
  obtain rfl := Command.resolve.inj ho
  have hr := Arguments.read_cons hp (k := "--spec") (by decide +kernel) (by decide)
    (by decide) hs q
  rw [ofArguments?_resolve]
  refine (congrArg _ hr).trans ?_
  rw [Option.map_some, resolveOptions_after hs]

end Command

theorem Asks.runOn_spec (h : Asks rest d o c) (hs : o.source.spec = none) (hc : c.spec = some s)
    (t : FileTree) (e : Environment) (now : Timestamp) :
    runOn ("resolve" :: ("--spec=" ++ s) :: rest) d t e now =
      runOn ("resolve" :: rest) d t e now := by
  have h' : Asks (("--spec=" ++ s) :: rest) d { o with source.spec := some s } c :=
    ⟨Command.ofArguments?_spec h.options hs s, h.config⟩
  have hconfigured : ({ o with source.spec := some s } : ResolveOptions).configured c =
      o.configured c := by
    simp [ResolveOptions.configured, hs, hc]
  exact (h.sameEffect h' hconfigured rfl rfl (.refl d t _ _)).eq.symm

theorem Asks.runOn_of_malformed {raw : String} {err : RegistryError} (h : Asks rest d o c)
    (ho : o.api = none) (hc : c.api = some raw) (hp : VersionRequest.parse raw = .error err)
    (t : FileTree) (e : Environment) (now : Timestamp) :
    runOn ("resolve" :: rest) d t e now = ({ failure := some (.registry err) }, t) := by
  have hrequest : c.request o.toOverrides = .error err := by
    simp only [Config.request, ho, hc, Option.none_or, hp, error_bind]
  have hplan : o.plan ⟨d, e, now⟩ = .error (.registry err) := by
    have heq : o.plan ⟨d, e, now⟩ = o.planWith c ⟨d, e, now⟩ := ResolveOptions.plan_eq h.config
    rw [heq, ResolveOptions.planWith, hrequest]
    rfl
  rw [h.runOn_eq]
  simp only [Command.plan, hplan]
  rfl

namespace Config

/-- A file is a configuration, which is taken as it is written. -/
def WrittenOn (w : Config) (d : Disk) (path : String) : Prop :=
  ∃ text, d.read path = .ok text ∧ (Toml.document? text).bind ofEntries? = some w

theorem WrittenOn.load_eq (h : w.WrittenOn d path) : load d path = .ok (w.anchor path) := by
  obtain ⟨text, hread, hw⟩ := h
  obtain ⟨entries, hd, he⟩ := Option.bind_eq_some_iff.mp hw
  have htext : ofText? path text = some (w.anchor path) := by
    rw [ofText?, hd]
    simp [he]
  simp only [load, hread, htext]

theorem WrittenOn.loadConfig_eq {source : Source}
    (h : w.WrittenOn d (source.config.getD defaultPath)) :
    source.loadConfig d = .ok (w.anchor (source.config.getD defaultPath)) := by
  unfold Source.loadConfig
  cases hc : source.config with
  | some path =>
    rw [hc] at h
    exact h.load_eq
  | none =>
    rw [hc] at h
    have ⟨text, hread, _⟩ := h
    have hfile : d.isFile defaultPath = true := Disk.isFile_of_read hread
    rw [hfile]
    exact h.load_eq

end Config

/-- What a path in a configuration stands for: an absolute one for itself, and a relative one for
the path in the directory of the file. -/
inductive Anchored (path s : String) : String → Prop

  | absolute : Path.isAbsolute s → Anchored path s s

  | within (d : String) : Path.parent? path = some d → Anchored path s (Path.join d s)

  | below (d f : String) : path = d ++ "/" ++ f → Path.IsPlain d → Path.IsName f →
      Path.isAbsolute s = false → Anchored path s (d ++ "/" ++ s)

  | beside : Path.IsName path → Anchored path s s

theorem Anchored.spec_anchor {q : String} (h : Anchored path s q) (hw : w.spec = some s) :
    (w.anchor path).spec = some q := by
  unfold Config.anchor
  cases h with
  | absolute hs =>
    cases Path.parent? path with
    | none => exact hw
    | some d => simp [hw, Path.join_of_isAbsolute hs]
  | within d hd => simp [hd, hw]
  | below d f hpath hd hf hs =>
    obtain ⟨p, hp, hjoin⟩ := Path.exists_parent?_join hf hd
    simp [hpath, hp, hw, hjoin s hs]
  | beside hpath => simp [Path.parent?_of_isName hpath, hw, Path.join]

example : ({ spec := some "../vk.xml" } : Config).anchor "other/vkfl.toml" =
    { spec := some "other/../vk.xml" } := by
  decide +kernel

/-- Flags act like values of the configuration: without them, a run by the configuration with what
they say in the place of its values has the same effect, whatever can be read and wherever it is
written. What a flag replaces does not matter, be it malformed or a list, and a malformed version
that none replaces is refused. A path to the registry in the file acts like the path that it stands
for on the command line. -/
theorem flags_as_configuration (e : Environment) (now : Timestamp) :
    (∀ args t, run args t e now = runOn args t.disk t e now) ∧
    (∀ rest o, Command.ofArguments? ("resolve" :: rest) = some (.resolve o) →
      ∃ rest', rest'.Sublist rest ∧ Command.ofArguments? ("resolve" :: rest') =
        some (.resolve (o.unflagged o.source.config))) ∧
    (∀ rest rest' d d' t t' o c file, Asks rest d o c →
      Asks rest' d' (o.unflagged file) (o.configured c) →
      AgreeOn d d' t t' (o.source.candidates c e) o.out →
      SameEffect o.out t t' (runOn ("resolve" :: rest) d t e now)
        (runOn ("resolve" :: rest') d' t' e now)) ∧
    (∀ rest rest' d d' t t' o c c' file, Asks rest d o c →
      Asks rest' d' { o with source.config := file } c' →
      AgreeOn d d' t t' (o.source.candidates c e) o.out →
      (o.api.isSome ∧ ∃ api, c' = { c with api := api }) ∨
        (o.extensions.isSome ∧ ∃ extensions, c' = { c with extensions := extensions }) →
      SameEffect o.out t t' (runOn ("resolve" :: rest) d t e now)
        (runOn ("resolve" :: rest') d' t' e now)) ∧
    (∀ rest d t o c raw err, Asks rest d o c → o.api = none → c.api = some raw →
      VersionRequest.parse raw = .error err →
      runOn ("resolve" :: rest) d t e now = ({ failure := some (.registry err) }, t)) ∧
    ∀ rest d t o (w : Config) s q, Command.ofArguments? ("resolve" :: rest) = some (.resolve o) →
      o.source.spec = none → w.WrittenOn d (o.source.config.getD Config.defaultPath) →
      w.spec = some s → Anchored (o.source.config.getD Config.defaultPath) s q →
      runOn ("resolve" :: ("--spec=" ++ q) :: rest) d t e now =
        runOn ("resolve" :: rest) d t e now := by
  refine ⟨fun _ _ => rfl, ?without, ?moved, ?replaced, ?refused, ?anchored⟩
  case without => exact fun rest o h => Command.exists_unflagged h
  case moved =>
    intro rest rest' d d' t t' o c file h h' hs
    exact h.sameEffect h' (o.configured_configured c file) rfl rfl hs
  case replaced =>
    intro rest rest' d d' t t' o c c' file h h' hs hgiven
    refine h.sameEffect h' ?_ rfl rfl hs
    rcases hgiven with ⟨hapi, api, rfl⟩ | ⟨hext, extensions, rfl⟩
    · obtain ⟨raw, hraw⟩ := Option.isSome_iff_exists.mp hapi
      simp [ResolveOptions.configured, hraw]
    · obtain ⟨raw, hraw⟩ := Option.isSome_iff_exists.mp hext
      simp [ResolveOptions.configured, hraw]
  case refused =>
    intro rest d t o c raw err h ho hc hp
    exact h.runOn_of_malformed ho hc hp t e now
  case anchored =>
    intro rest d t o w s q h ho hw hs hq
    have hasks : Asks rest d o (w.anchor (o.source.config.getD Config.defaultPath)) :=
      ⟨h, hw.loadConfig_eq⟩
    exact hasks.runOn_spec ho (hq.spec_anchor hs) t e now

def looseText : String := "api = \"1.x\"\nextensions = [\"VK_KHR_surface\"]\n"

def looseConfig : Config where
  api := some "1.x"
  extensions := some (.list ["VK_KHR_surface"])

def fixedText : String :=
  "spec = \"../vk.xml\"\nflavor = \"vulkansc\"\napi = \"1.0\"\nextensions = \"all\"\n" ++
    "generate_disabled = false\n"

/-- Configurations in the working directory and in one below it, and a directory for reports. -/
def flagTree : FileTree where
  files := [(["work", "vk.xml"], Registry.orderedDocument), (["work", "vkfl.toml"], looseText),
    (["work", "other", "vkfl.toml"], fixedText)]
  directories := [["out"]]
  workingDirectory := ["work"]

def flagArguments : List String :=
  ["--spec", "other/../vk.xml", "--api=1.0", "--extensions", "all", "--flavor", "vulkansc",
    "--no-disabled", "--out", "/out/report.txt"]

def flagOptions : ResolveOptions where
  flavor := some "vulkansc"
  api := some "1.0"
  extensions := some "all"
  source := { spec := some "other/../vk.xml" }
  noDisabled := true
  out := some "/out/report.txt"

theorem asks_flagArguments : Asks flagArguments flagTree.disk flagOptions looseConfig where
  options := by decide +kernel
  config := by decide +kernel

/-- The tree after the version in the configuration got another malformed value. -/
def editedTree : FileTree :=
  flagTree.put ["work", "vkfl.toml"] "api = \"latest.1\"\nextensions = [\"VK_KHR_surface\"]\n"

theorem agreeOn_editedTree (out : Option String) :
    AgreeOn flagTree.disk editedTree.disk flagTree editedTree ["other/../vk.xml"] out := by
  have hf : flagTree.find "vkfl.toml" = .ok ["work", "vkfl.toml"] := by decide +kernel
  have hn : flagTree.node? ["work", "vkfl.toml"] = some (.file looseText) := rfl
  refine FileTree.agreeOn_put hf hn _ (fun path hpath => ?_) out
  obtain rfl := List.mem_singleton.mp hpath
  decide +kernel

theorem exists_plan_flagOptions : ∃ r text, flagOptions.plan ⟨flagTree.disk, {}, leapNoon⟩ =
    .ok (flagOptions.planOf "other/../vk.xml" r text) := by
  obtain ⟨R, hR⟩ := Registry.exists_read_orderedDocument
  have hread : flagTree.read "other/../vk.xml" = .ok Registry.orderedDocument :=
    FileTree.read_eq_ok_iff.mpr ⟨["work", "vk.xml"], by decide +kernel, rfl, by decide⟩
  have hs : flagOptions.source.Reads ⟨flagTree.disk, {}, leapNoon⟩ looseConfig "other/../vk.xml"
      Registry.orderedDocument R :=
    ⟨asks_flagArguments.config, rfl, hread, hR⟩
  have hq : looseConfig.request flagOptions.toOverrides =
      .ok { flavor := "vulkansc", version := .upTo ⟨1, 0⟩ } := by
    decide +kernel
  obtain ⟨r, hr⟩ := exists_resolve_of_read hR { flavor := "vulkansc", version := .upTo ⟨1, 0⟩ }
  exact ⟨r, _, ResolveOptions.plan_eq_ok_iff.mpr ⟨looseConfig, _, _, _, R, r, hq, hs, hr, rfl⟩⟩

theorem code_run_flagArguments :
    (run ("resolve" :: flagArguments) flagTree {} leapNoon).1.code = 0 := by
  obtain ⟨r, text, hplan⟩ := exists_plan_flagOptions
  have htarget : flagTree.target "/out/report.txt" = .ok ["out", "report.txt"] := by
    decide +kernel
  have hw : flagTree.write "/out/report.txt" text =
      .ok (flagTree.put ["out", "report.txt"] text) :=
    FileTree.write_eq_ok_iff.mpr ⟨_, htarget, rfl⟩
  have hrun : run ("resolve" :: flagArguments) flagTree {} leapNoon =
      ((Command.resolve flagOptions).plan ⟨flagTree.disk, {}, leapNoon⟩).perform flagTree :=
    asks_flagArguments.runOn_eq flagTree {} leapNoon
  rw [hrun, Command.plan_resolve hplan, perform_of_write rfl hw]
  rfl

/-- Flags on top of one configuration, the other configuration without flags, and an edit of what
the flags replace give the same, and no failure. Without flags the malformed version is refused. -/
theorem flags_as_configuration_flagTree :
    (∃ rest', rest'.Sublist flagArguments ∧ Command.ofArguments? ("resolve" :: rest') =
      some (.resolve (flagOptions.unflagged none))) ∧
    run ("resolve" :: flagArguments) flagTree {} leapNoon =
      run ["resolve", "--config", "other/vkfl.toml", "--out", "/out/report.txt"] flagTree {}
        leapNoon ∧
    (run ("resolve" :: flagArguments) flagTree {} leapNoon).1.code = 0 ∧
    SameEffect (some "/out/report.txt") flagTree editedTree
      (run ("resolve" :: flagArguments) flagTree {} leapNoon)
      (run ("resolve" :: flagArguments) editedTree {} leapNoon) ∧
    run ["resolve"] flagTree {} leapNoon =
      ({ failure := some (.registry (.unknownVersionFormat "1.x")) }, flagTree) ∧
    run ["resolve", "--spec=other/../vk.xml", "--config", "other/vkfl.toml"] flagTree {} leapNoon =
      run ["resolve", "--config", "other/vkfl.toml"] flagTree {} leapNoon := by
  obtain ⟨hrun, hwithout, hmoved, hreplaced, hrefused, hanchored⟩ :=
    flags_as_configuration {} leapNoon
  simp only [hrun]
  refine ⟨hwithout _ _ asks_flagArguments.options, ?moved, code_run_flagArguments, ?replaced,
    ?refused, ?anchored⟩
  case moved =>
    have hasks : Asks ["--config", "other/vkfl.toml", "--out", "/out/report.txt"] flagTree.disk
        (flagOptions.unflagged (some "other/vkfl.toml")) (flagOptions.configured looseConfig) :=
      ⟨by decide +kernel, by decide +kernel⟩
    exact (hmoved _ _ _ _ _ _ _ _ _ asks_flagArguments hasks (.refl _ _ _ _)).eq
  case replaced =>
    have hasks : Asks flagArguments editedTree.disk { flagOptions with source.config := none }
        { looseConfig with api := some "latest.1" } := ⟨by decide +kernel, by decide +kernel⟩
    exact hreplaced _ _ _ _ _ _ _ _ _ none asks_flagArguments hasks (agreeOn_editedTree _)
      (.inl ⟨rfl, _, rfl⟩)
  case refused =>
    have hasks : Asks [] flagTree.disk {} looseConfig := ⟨by decide +kernel, by decide +kernel⟩
    exact hrefused _ _ _ _ _ "1.x" _ hasks rfl rfl (by decide +kernel)
  case anchored =>
    have hasks : Command.ofArguments? ["resolve", "--config", "other/vkfl.toml"] =
        some (.resolve { source := { config := some "other/vkfl.toml" } }) := by decide +kernel
    have hwritten : Config.WrittenOn { flagOptions.configured looseConfig with
        spec := some "../vk.xml" } flagTree.disk "other/vkfl.toml" :=
      ⟨fixedText, by decide +kernel, by decide +kernel⟩
    have hanchor : Anchored "other/vkfl.toml" "../vk.xml" "other/../vk.xml" := by
      refine .below "other" "vkfl.toml" rfl (.inr (.inr fun step h => ?_)) ?_ ?_
      · obtain rfl : "other".toList = step := Option.some.inj h
        decide
      · exact ⟨by decide, by decide⟩
      · decide
    have hflag : "--spec=" ++ "other/../vk.xml" = "--spec=other/../vk.xml" := by decide
    rw [← hflag]
    exact hanchored _ _ _ _ _ _ _ hasks rfl hwritten rfl hanchor

end LoadTiers
