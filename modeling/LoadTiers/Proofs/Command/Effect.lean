import LoadTiers.Proofs.Command.Output
import LoadTiers.Proofs.FileTree.Alike

/-! # What a resolution depends on

Once its configuration is loaded, a resolution depends on the files in which the registry may be,
and on no other. Two resolutions with one plan have the same effect if they write to the same place.
-/

namespace LoadTiers

variable {o : ResolveOptions} {c : Config} {d d' : Disk} {x : Setting} {t t' : FileTree}
  {e : Environment} {now : Timestamp} {rest : List String} {path : String}

namespace ResolveOptions

def planWith (o : ResolveOptions) (c : Config) (x : Setting) : Except Failure Plan := do
  let request ← (c.request o.toOverrides).mapError .registry
  let path ← o.source.locate c x.disk x.environment
  let registry ← Registry.load x.disk path c.tierPolicy
  let resolution ← (registry.resolve request).mapError .registry
  return o.planOf path resolution (o.report (o.facts x.now c registry resolution) resolution)

theorem plan_eq (h : o.source.loadConfig x.disk = .ok c) : o.plan x = o.planWith c x := by
  rw [plan, h, ok_bind]
  rfl

theorem mem_candidates_of_locate (h : o.source.locate c d e = .ok path) :
    path ∈ o.source.candidates c e := by
  unfold Source.locate at h
  unfold Source.candidates
  split at h
  · obtain rfl := Except.ok.inj h
    exact List.mem_singleton_self _
  · split at h
    · next place hf =>
      obtain rfl := Except.ok.inj h
      exact List.mem_of_find?_eq_some hf
    · cases h

section Disks

variable (hlook : ∀ path ∈ o.source.candidates c e, d'.look path = d.look path)
include hlook

theorem locate_congr : o.source.locate c d' e = o.source.locate c d e := by
  unfold Source.candidates at hlook
  unfold Source.locate
  cases hc : o.source.chosen? c with
  | some path => rfl
  | none =>
    rw [hc] at hlook
    have hf : e.candidates.filter d'.isFile = e.candidates.filter d.isFile := by
      refine List.filter_congr fun path hp => ?_
      rw [Disk.isFile, Disk.isFile, hlook path hp]
    rw [← List.head?_filter, hf, List.head?_filter]

theorem planWith_disk : o.planWith c ⟨d', e, now⟩ = o.planWith c ⟨d, e, now⟩ := by
  unfold planWith
  rw [locate_congr hlook]
  cases c.request o.toOverrides with
  | error err => rfl
  | ok request =>
    cases hl : o.source.locate c d e with
    | error f => rfl
    | ok path =>
      have hload : Registry.load d' path c.tierPolicy = Registry.load d path c.tierPolicy := by
        rw [Registry.load, Registry.load, Disk.read, Disk.read,
          hlook path (mem_candidates_of_locate hl)]
      simp only [Except.mapError, ok_bind, hload]

end Disks

theorem out_eq_of_output {text : String}
    (h : ((Command.resolve o).plan x).output = some (path, text)) : o.out = some path := by
  cases hp : o.plan x with
  | error f =>
    simp only [Command.plan, hp] at h
    cases h
  | ok p =>
    rw [Command.plan_resolve hp] at h
    obtain ⟨_, _, _, _, _, _, -, -, -, rfl⟩ := plan_eq_ok_iff.mp hp
    cases hout : o.out with
    | none =>
      simp only [planOf, hout] at h
      cases h
    | some out =>
      simp only [planOf, hout] at h
      obtain ⟨rfl, -⟩ := Prod.mk.inj (Option.some.inj h)
      rfl

end ResolveOptions

/-- Arguments ask for a resolution, which is done by a configuration. -/
structure Asks (rest : List String) (d : Disk) (o : ResolveOptions) (c : Config) : Prop where
  options : Command.ofArguments? ("resolve" :: rest) = some (.resolve o)
  config : o.source.loadConfig d = .ok c

/-- Two runs show and log the same. Both leave their trees as they are, or both write the same text
to the same file. -/
inductive SameEffect (out : Option String) (t t' : FileTree) :
    Outcome × FileTree → Outcome × FileTree → Prop

  | unchanged (shown : Outcome) : SameEffect out t t' (shown, t) (shown, t')

  | written (shown : Outcome) (path text : String) (u u' : FileTree) : out = some path →
      t.write path text = .ok u → t'.write path text = .ok u' →
      SameEffect out t t' (shown, u) (shown, u')

theorem SameEffect.eq {out : Option String} {r r' : Outcome × FileTree}
    (h : SameEffect out t t r r') : r = r' := by
  cases h with
  | unchanged => rfl
  | written shown path text u u' _ hu hu' => rw [Except.ok.inj (hu.symm.trans hu')]

theorem sameEffect_perform (p : Plan) {out : Option String}
    (htarget : ∀ path, out = some path → t'.target path = t.target path)
    (hout : ∀ path text, p.output = some (path, text) → out = some path) :
    SameEffect out t t' (p.perform t) (p.perform t') := by
  unfold Plan.perform
  split
  · exact .unchanged _
  · next path text hp =>
    have hw : t.write path text = (t.target path).map (t.put · text) := rfl
    have hw' : t'.write path text = (t'.target path).map (t'.put · text) := rfl
    rw [htarget path (hout path text hp)] at hw'
    cases hplace : t.target path with
    | error fault =>
      rw [hplace] at hw hw'
      rw [hw, hw']
      exact .unchanged _
    | ok l =>
      rw [hplace] at hw hw'
      simp only [hw, hw']
      exact .written _ path text _ _ (hout path text hp) hw hw'

theorem Asks.runOn_eq (h : Asks rest d o c) (t : FileTree) (e : Environment) (now : Timestamp) :
    runOn ("resolve" :: rest) d t e now = ((Command.resolve o).plan ⟨d, e, now⟩).perform t := by
  rw [runOn, h.options]

theorem Asks.sameEffect_of_planWith {o' : ResolveOptions} {c' : Config} {rest' : List String}
    (h : Asks rest d o c) (h' : Asks rest' d' o' c')
    (htarget : ∀ path, o.out = some path → t'.target path = t.target path)
    (hplan : o'.planWith c' ⟨d', e, now⟩ = o.planWith c ⟨d, e, now⟩) :
    SameEffect o.out t t' (runOn ("resolve" :: rest) d t e now)
      (runOn ("resolve" :: rest') d' t' e now) := by
  have hmade : o'.plan ⟨d', e, now⟩ = o.plan ⟨d, e, now⟩ :=
    calc o'.plan ⟨d', e, now⟩
        = o'.planWith c' ⟨d', e, now⟩ := ResolveOptions.plan_eq h'.config
      _ = o.planWith c ⟨d, e, now⟩ := hplan
      _ = o.plan ⟨d, e, now⟩ := (ResolveOptions.plan_eq h.config).symm
  have hcommand : (Command.resolve o').plan ⟨d', e, now⟩ =
      (Command.resolve o).plan ⟨d, e, now⟩ := by
    simp only [Command.plan, hmade]
  rw [h.runOn_eq, h'.runOn_eq, hcommand]
  exact sameEffect_perform _ htarget fun _ _ => ResolveOptions.out_eq_of_output

end LoadTiers
