import LoadTiers.Proofs.Arguments
import LoadTiers.Proofs.Command.Plans
import LoadTiers.Proofs.FileTree
import LoadTiers.Proofs.Resolution.Refusal

/-! # What runs write

Only a resolution can write, and it writes what it would print otherwise. Writing comes last, so
that a run that fails has changed nothing.
-/

namespace LoadTiers

variable {o : ResolveOptions} {x : Setting} {p : Plan} {t t' : FileTree} {d : Disk}
  {e : Environment} {now : Timestamp} {rest : List String} {path text : String}

namespace Command

def resolveSignature : Signature where
  values := ["--spec", "--config", "--api", "--extensions", "--flavor", "--out"]
  flags := ["--no-disabled", "--json"]
  names := false

def resolveOptions (p : Arguments) : ResolveOptions where
  flavor := p.values.lookup "--flavor"
  api := p.values.lookup "--api"
  extensions := p.values.lookup "--extensions"
  source := p.source
  noDisabled := "--no-disabled" ∈ p.flags
  out := p.values.lookup "--out"
  json := "--json" ∈ p.flags

theorem ofArguments?_resolve (rest : List String) : ofArguments? ("resolve" :: rest) =
    (Arguments.read resolveSignature rest).map fun p => .resolve (resolveOptions p) := by
  rw [ofArguments?]
  cases h : Arguments.read resolveSignature rest with
  | none => exact Option.bind_eq_none_iff.mpr fun p hp => by cases h.symm.trans hp
  | some p => exact Option.bind_eq_some_iff.mpr ⟨p, h, rfl⟩

theorem resolveOptions_drop_out (p : Arguments) :
    resolveOptions (p.drop "--out") = { resolveOptions p with out := none } := by
  have hl : ∀ option, option ≠ "--out" →
      (p.drop "--out").values.lookup option = p.values.lookup option := fun _ h =>
    Arguments.lookup_drop p h
  have hout := Arguments.lookup_drop_self p "--out"
  simp only [resolveOptions, Arguments.source, hout, hl "--flavor" (by decide),
    hl "--api" (by decide), hl "--extensions" (by decide), hl "--spec" (by decide),
    hl "--config" (by decide)]
  rfl

theorem exists_ofArguments?_without (h : ofArguments? ("resolve" :: rest) = some (.resolve o))
    (hout : o.out = some path) : ∃ before tokens after, rest = before ++ tokens ++ after ∧
      Arguments.Gives "--out" path tokens ∧
      ofArguments? ("resolve" :: (before ++ after)) = some (.resolve { o with out := none }) := by
  rw [ofArguments?_resolve] at h
  obtain ⟨p, hp, ho⟩ := Option.map_eq_some_iff.mp h
  obtain rfl := Command.resolve.inj ho
  obtain ⟨before, tokens, after, rfl, ht, hd⟩ := Arguments.exists_read_drop hp hout
  refine ⟨before, tokens, after, rfl, ht, ?_⟩
  rw [ofArguments?_resolve, hd, Option.map_some, resolveOptions_drop_out]

end Command

/-- A run that reads from any view of files, and writes into a tree. -/
def runOn (args : List String) (d : Disk) (t : FileTree) (e : Environment) (now : Timestamp) :
    Outcome × FileTree :=
  match Command.ofArguments? args with
  | none => ({ failure := some .usage }, t)
  | some c => (c.plan ⟨d, e, now⟩).perform t

theorem Failure.code_ne_zero (f : Failure) : f.code ≠ 0 := by
  cases f <;> simp [code]

/-- The ways in which a run of a resolution ends: refused, printed, not written, and written. -/
inductive ResolveRun (rest : List String) (d : Disk) (t : FileTree) (e : Environment)
    (now : Timestamp) : Outcome × FileTree → Prop

  | refused (f : Failure) : ResolveRun rest d t e now ({ failure := some f }, t)

  | printed (o : ResolveOptions) (log : List LogEvent) (warnings : List String) (text : String) :
      Command.ofArguments? ("resolve" :: rest) = some (.resolve o) → o.out = none →
      ResolveRun rest d t e now ({ stdout := endLine text, log, warnings }, t)

  | unwritten (log : List LogEvent) (warnings : List String) (f : Failure) :
      ResolveRun rest d t e now ({ log, warnings, failure := some f }, t)

  | written (o : ResolveOptions) (log : List LogEvent) (warnings : List String)
      (path text : String) (t' : FileTree) :
      Command.ofArguments? ("resolve" :: rest) = some (.resolve o) → o.out = some path →
      t.write path text = .ok t' →
      ({ o with out := none } : ResolveOptions).plan ⟨d, e, now⟩ =
        .ok { stdout := endLine text, log, warnings } →
      ResolveRun rest d t e now ({ log, warnings }, t')

theorem resolveRun_runOn (rest : List String) (d : Disk) (t : FileTree) (e : Environment)
    (now : Timestamp) : ResolveRun rest d t e now (runOn ("resolve" :: rest) d t e now) := by
  unfold runOn
  cases hargs : Command.ofArguments? ("resolve" :: rest) with
  | none => exact .refused _
  | some c =>
    obtain ⟨a, -, rfl⟩ := Option.map_eq_some_iff.mp
      ((Command.ofArguments?_resolve rest).symm.trans hargs)
    generalize Command.resolveOptions a = o at hargs ⊢
    cases hplan : o.plan ⟨d, e, now⟩ with
    | error f =>
      simp only [Command.plan, hplan]
      exact .refused f
    | ok p =>
      obtain ⟨c, q, place, text, R, r, hq, hs, hr, rfl⟩ := ResolveOptions.plan_eq_ok_iff.mp hplan
      simp only [Command.plan, hplan]
      have hwithout := ResolveOptions.plan_eq_ok_iff (o := { o with out := none }).mpr
        ⟨c, q, place, text, R, r, hq, hs, hr, rfl⟩
      cases hout : o.out with
      | none =>
        simp only [ResolveOptions.planOf, hout, Plan.perform]
        exact .printed o _ _ _ hargs hout
      | some path =>
        simp only [ResolveOptions.planOf, hout, Plan.perform]
        cases hwrite : t.write path (o.report (o.facts now c R r) r) with
        | error fault => exact .unwritten _ _ _
        | ok t' => exact .written o _ _ path _ t' hargs hout hwrite hwithout

theorem perform_of_output_eq_none (h : p.output = none) (t : FileTree) :
    p.perform t = (p.toOutcome, t) := by
  simp only [Plan.perform, h]

theorem Command.plan_resolve (h : o.plan x = .ok p) : (Command.resolve o).plan x = p := by
  simp only [Command.plan, h]

theorem perform_of_write (h : p.output = some (path, text)) (hw : t.write path text = .ok t') :
    p.perform t = (p.toOutcome, t') := by
  simp only [Plan.perform, h, hw]

theorem output_classify (s : Source) (names : List String) (json : Bool) (x : Setting) :
    ((Command.classify s names json).plan x).output = none := by
  simp only [Command.plan]
  cases h : Classification.plan s names json x with
  | error f => rfl
  | ok p =>
    obtain ⟨_, _, _, _, -, rfl⟩ := Classification.plan_eq_ok_iff.mp h
    rfl

theorem output_locate (s : Source) (json : Bool) (x : Setting) :
    ((Command.locate s json).plan x).output = none := by
  simp only [Command.plan]
  cases h : s.plan json x with
  | error f => rfl
  | ok p =>
    obtain ⟨_, -, h⟩ := bind_eq_ok_iff.mp h
    obtain ⟨_, -, h⟩ := bind_eq_ok_iff.mp h
    obtain rfl := Except.ok.inj h
    rfl

theorem runOn_classify (rest : List String) (d : Disk) (t : FileTree) (e : Environment)
    (now : Timestamp) : (runOn ("classify" :: rest) d t e now).2 = t := by
  unfold runOn
  cases hargs : Command.ofArguments? ("classify" :: rest) with
  | none => rfl
  | some c =>
    obtain ⟨_, -, h⟩ := Option.bind_eq_some_iff.mp hargs
    obtain rfl := Option.some.inj h
    simp only [perform_of_output_eq_none (output_classify _ _ _ _)]

theorem runOn_locate (rest : List String) (d : Disk) (t : FileTree) (e : Environment)
    (now : Timestamp) : (runOn ("locate" :: rest) d t e now).2 = t := by
  unfold runOn
  cases hargs : Command.ofArguments? ("locate" :: rest) with
  | none => rfl
  | some c =>
    obtain ⟨_, -, h⟩ := Option.bind_eq_some_iff.mp hargs
    obtain rfl := Option.some.inj h
    simp only [perform_of_output_eq_none (output_locate _ _ _)]

/-- A run that fails shows no report and leaves the tree as it is. One that succeeds changes at most
the file that it is told to write, and writes what it prints without that option. -/
theorem run_output (d : Disk) (t : FileTree) (e : Environment) (now : Timestamp) :
    (∀ args, run args t e now = runOn args t.disk t e now) ∧
    (∀ rest, (runOn ("classify" :: rest) d t e now).2 = t ∧
      (runOn ("locate" :: rest) d t e now).2 = t) ∧
    ∀ rest outcome t', runOn ("resolve" :: rest) d t e now = (outcome, t') →
      (outcome.code ≠ 0 → outcome.stdout = "" ∧ t' = t) ∧
      (outcome.code = 0 → ∃ o, Command.ofArguments? ("resolve" :: rest) = some (.resolve o) ∧
        (o.out = none → t' = t) ∧
        ∀ path, o.out = some path → outcome.stdout = "" ∧
          ∃ l text, t.find path = .ok l ∧ t'.read path = .ok text ∧
            (∀ m, m ≠ l → t'.node? m = t.node? m) ∧
            ∃ before tokens after, rest = before ++ tokens ++ after ∧
              Arguments.Gives "--out" path tokens ∧
              runOn ("resolve" :: (before ++ after)) d t e now = ({ outcome with
                stdout := if text.endsWith "\n" then text else text ++ "\n" }, t)) := by
  refine ⟨fun _ => rfl, fun rest => ⟨runOn_classify rest d t e now, runOn_locate rest d t e now⟩,
    fun rest outcome t' hrun => ?_⟩
  have hends := resolveRun_runOn rest d t e now
  rw [hrun] at hends
  cases hends with
  | refused f => exact ⟨fun _ => ⟨rfl, rfl⟩, fun h => absurd h f.code_ne_zero⟩
  | unwritten log warnings f => exact ⟨fun _ => ⟨rfl, rfl⟩, fun h => absurd h f.code_ne_zero⟩
  | printed o log warnings text hargs hout =>
    refine ⟨fun h => absurd rfl h, fun _ => ⟨o, hargs, fun _ => rfl, fun path hpath => ?_⟩⟩
    cases hout.symm.trans hpath
  | written o log warnings path text t' hargs hout hwrite hplan =>
    refine ⟨fun h => absurd rfl h, fun _ => ⟨o, hargs, fun hnone => ?_, fun path' hpath => ?_⟩⟩
    · cases hout.symm.trans hnone
    · obtain rfl := Option.some.inj (hout.symm.trans hpath)
      obtain ⟨l, hl, hread, hframe⟩ := FileTree.write_spec hwrite
      obtain ⟨before, tokens, after, hrest, hgives, hargs'⟩ :=
        Command.exists_ofArguments?_without hargs hout
      refine ⟨rfl, l, text, hl, hread, hframe, before, tokens, after, hrest, hgives, ?_⟩
      simp only [runOn, hargs', Command.plan, hplan, Plan.perform]
      rfl

theorem exists_resolve_of_read {policy : TierPolicy} {R : Registry}
    (h : Registry.read text policy = .ok R) (q : Request) : ∃ r, R.resolve q = .ok r := by
  obtain ⟨root, _, -, hroot, rfl⟩ := Registry.read_eq_ok_iff.mp h
  obtain ⟨-, _, _, _, R, -, -, -, ha, rfl⟩ := Registry.ofRoot_eq_ok_iff.mp hroot
  exact ⟨_, Registry.resolve_of_assemble ha q⟩

def reportArguments : List String := ["--spec", "vk.xml", "--out", "/out/report.txt"]

theorem write_registryTree (content : String) : registryTree.write "/out/report.txt" content =
    .ok (registryTree.put ["out", "report.txt"] content) := by
  have htarget : registryTree.target "/out/report.txt" = .ok ["out", "report.txt"] := by
    decide +kernel
  exact FileTree.write_eq_ok_iff.mpr ⟨_, htarget, rfl⟩

def reportOptions : ResolveOptions := { source := registrySource, out := some "/out/report.txt" }

theorem ofArguments?_reportArguments :
    Command.ofArguments? ("resolve" :: reportArguments) = some (.resolve reportOptions) := by
  decide +kernel

theorem request_reportOptions : ({} : Config).request reportOptions.toOverrides = .ok {} := rfl

theorem exists_plan_reportOptions : ∃ path r text,
    reportOptions.plan registrySetting = .ok (reportOptions.planOf path r text) := by
  obtain ⟨R, hs⟩ := exists_reads_registrySource
  obtain ⟨r, hr⟩ := exists_resolve_of_read hs.registry {}
  exact ⟨_, r, _, ResolveOptions.plan_eq_ok_iff.mpr
    ⟨{}, {}, _, _, R, r, request_reportOptions, hs, hr, rfl⟩⟩

theorem exists_runOn_reportArguments : ∃ log warnings text,
    runOn ("resolve" :: reportArguments) registryTree.disk registryTree {} leapNoon =
      ({ log, warnings }, registryTree.put ["out", "report.txt"] text) := by
  obtain ⟨path, r, text, hplan⟩ := exists_plan_reportOptions
  refine ⟨r.log, r.warnings path, text, ?_⟩
  rw [runOn, ofArguments?_reportArguments]
  change ((Command.resolve reportOptions).plan registrySetting).perform registryTree = _
  rw [Command.plan_resolve hplan]
  exact perform_of_write rfl (write_registryTree text)

/-- A run without its output file is refused. With the file, outside the working directory, it
leaves the registry as it is. -/
theorem run_output_registryTree :
    ((run ["resolve", "--out"] registryTree {} leapNoon).1.code ≠ 0 ∧
      (run ["resolve", "--out"] registryTree {} leapNoon).2 = registryTree) ∧
    ∃ outcome t', run ("resolve" :: reportArguments) registryTree {} leapNoon = (outcome, t') ∧
      outcome.code = 0 ∧ outcome.stdout = "" ∧ (∃ text, t'.read "/out/report.txt" = .ok text) ∧
      t'.node? ["work", "vk.xml"] = some (.file Registry.orderedDocument) := by
  obtain ⟨hrun, -, hresolve⟩ := run_output registryTree.disk registryTree {} leapNoon
  refine ⟨?refused, ?written⟩
  case refused =>
    have hcode : (runOn ["resolve", "--out"] registryTree.disk registryTree {} leapNoon).1.code ≠
        0 := by
      decide +kernel
    rw [hrun]
    exact ⟨hcode, ((hresolve ["--out"] _ _ rfl).1 hcode).2⟩
  case written =>
    obtain ⟨log, warnings, text, h⟩ := exists_runOn_reportArguments
    refine ⟨_, _, (hrun _).trans h, rfl, ?_⟩
    obtain ⟨o, ho, -, hwritten⟩ := (hresolve _ _ _ h).2 rfl
    obtain rfl := Command.resolve.inj (Option.some.inj (ofArguments?_reportArguments.symm.trans ho))
    obtain ⟨hstdout, l, text', hl, hread, hframe, -⟩ := hwritten "/out/report.txt" rfl
    refine ⟨hstdout, ⟨text', hread⟩, (hframe ["work", "vk.xml"] ?_).trans rfl⟩
    rintro rfl
    have hl' : registryTree.find "/out/report.txt" ≠ .ok ["work", "vk.xml"] := by decide +kernel
    exact hl' hl

end LoadTiers
