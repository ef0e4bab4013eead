import LoadTiers.Proofs.ChainOutcome
import LoadTiers.Proofs.Markup.Order
import LoadTiers.Proofs.Markup.Padding
import LoadTiers.Proofs.Markup.Tiers

/-! # Padding that is noticed

Blanks around the name of a type take the type out of the graph of parents, and with it go tiers.
Blanks around what gives a revision lose the revision, or make it unreadable. That is all that
padding can do to a registry.
-/

namespace LoadTiers

def Feature.SameButVersion (f f' : Feature) : Prop := f' = { f with version := f'.version }

def EntryPoint.SameButTier (e e' : EntryPoint) : Prop := e' = { e with tier := e'.tier }

structure FeatureSet.SameButRevisions (s s' : FeatureSet) : Prop where
  versions : s'.versions = s.versions
  extensions : ∀ n, Option.Rel Feature.SameButVersion (s.extension? n) (s'.extension? n)

/-- The registries are the same but for their types, the tiers of entry points, the revisions of
extensions and the digests. -/
structure Registry.Resembles (R R' : Registry) : Prop where
  entries : ∀ n, Option.Rel EntryPoint.SameButTier (R.catalog.get? n) (R'.catalog.get? n)
  features : R.features.SameButRevisions R'.features
  policy : R'.policy = R.policy
  specVersion : R'.specVersion = R.specVersion

theorem Feature.SameButVersion.rest {f f' : Feature} (h : f.SameButVersion f') :
    f'.name = f.name ∧ f'.kind = f.kind ∧ f'.adds = f.adds ∧ f'.removes = f.removes := by
  rw [h]
  exact ⟨rfl, rfl, rfl, rfl⟩

/-- Chains do not depend on types. -/
theorem Catalog.sameButTier_of_build {ds : List Declaration} {types types' : TypeGraph}
    {policy : TierPolicy} {catalog catalog' : Catalog} (h : build ds types policy = .ok catalog)
    (h' : build ds types' policy = .ok catalog') (n : String) :
    Option.Rel EntryPoint.SameButTier (catalog.get? n) (catalog'.get? n) := by
  apply rel_of_isSome_iff
  · exact (contains_of_build h).trans (contains_of_build h').symm
  · intro e e' he he'
    obtain ⟨d, hd, hen⟩ := (get?_of_build h).mp he
    obtain ⟨d', hd', hen'⟩ := (get?_of_build h').mp he'
    obtain rfl : d = d' := Option.some.inj (hd.symm.trans hd')
    obtain ⟨hdecl, hends, -⟩ := enter_eq_ok_iff.mp hen
    obtain ⟨hdecl', hends', -⟩ := enter_eq_ok_iff.mp hen'
    obtain ⟨hc, ho⟩ := ChainEnd.canonical.inj (hends.unique hends')
    rw [EntryPoint.SameButTier, hc, ho, hdecl, ← hdecl']

namespace FeatureSet

variable {s s' : FeatureSet} {f f' : Feature} {vs xs xs' : List Feature}

theorem SameButRevisions.refl (s : FeatureSet) : s.SameButRevisions s := by
  refine ⟨rfl, fun n => rel_of_isSome_iff Iff.rfl fun f f' hf hf' => ?_⟩
  obtain rfl : f = f' := Option.some.inj (hf.symm.trans hf')
  rfl

theorem SameButRevisions.insert (hs : s.SameButRevisions s') (hf : f.SameButVersion f')
    (hx : f.isExtension) : (s.insert f).SameButRevisions (s'.insert f') := by
  obtain ⟨hn, hk, -, -⟩ := hf.rest
  have hx' : f'.isExtension := by
    rw [Feature.isExtension, hk]
    exact hx
  unfold FeatureSet.insert
  rw [dif_pos hx, dif_pos hx']
  refine ⟨hs.versions, fun n => ?_⟩
  simp only [extension?, Roster.get?_insert, hn]
  split
  · exact .some hf
  · exact hs.extensions n

theorem sameButRevisions_foldl (hx : ∀ f ∈ xs, f.isExtension = true)
    (h : List.Forall₂ Feature.SameButVersion xs xs') (hs : s.SameButRevisions s') :
    (xs.foldl FeatureSet.insert s).SameButRevisions (xs'.foldl FeatureSet.insert s') := by
  induction h generalizing s s' with
  | nil => exact hs
  | cons hf _ ih =>
    obtain ⟨hx, hxs⟩ := List.forall_mem_cons.mp hx
    exact ih hxs (hs.insert hf hx)

theorem SameButRevisions.exists_uses (h : s.SameButRevisions s') {u : Use} (hu : s'.Uses u) :
    ∃ u', s.Uses u' ∧ u'.name = u.name := by
  obtain ⟨f', removal, n⟩ := u
  obtain ⟨hf' | hf', hn⟩ := hu
  · rw [apiVersion?, h.versions] at hf'
    exact ⟨⟨f', removal, n⟩, ⟨.inl hf', hn⟩, rfl⟩
  · have hx := h.extensions f'.name
    rw [hf'] at hx
    generalize hf : s.extension? f'.name = o at hx
    cases hx with
    | @some f _ hx =>
      obtain ⟨hname, -, ha, hr⟩ := hx.rest
      refine ⟨⟨f, removal, n⟩, ⟨.inr (hname ▸ hf), ?_⟩, rfl⟩
      rw [Use.names, ha, hr] at hn
      exact hn

end FeatureSet

namespace Registry

open Text Xml

variable {n n' root root' : Node} {a b : String} {f : Feature} {policy : TierPolicy}

theorem typeName?_padded (h : Padded n n') :
    Option.Rel (fun s t : String => Pads s.toList t.toList) (typeName? n) (typeName? n') := by
  apply rel_or (h.attribute? "name")
  rw [childText?_padded h]
  cases childText? n "name" with
  | none => exact .none
  | some s => exact .some (.refl _)

example : typeName? (.element "type" [("name", " VkQueue")] []) = some " VkQueue" := by
  decide +kernel

theorem Lists.exists_trim {m : Node} (h : Lists m a) : ∃ raw, trim raw = a := by
  cases h with
  | parent _ _ hb _ => exact ⟨_, hb⟩
  | target _ hb _ => exact ⟨_, hb⟩

/-- A name that is listed has no blanks at its ends, so that no type gets it by padding. -/
theorem listsParent_of_padded (h : Padded root root') {m : Node} (hm : Lists m a)
    (hl : ListsParent (typeElements root') a b) : ListsParent (typeElements root) a b := by
  obtain ⟨n', hn', hname, hb⟩ := hl
  obtain ⟨n, hn, hp⟩ := exists_of_mem_forall₂_right (elementsWithin_padded h "types" "type") hn'
  have hna : typeName? n = some a := by
    rcases cases_of_rel (typeName?_padded hp) with ⟨-, ht⟩ | ⟨s, t, hs, ht, hst⟩
    · rw [hname] at ht
      cases ht
    · obtain rfl : a = t := Option.some.inj (hname.symm.trans ht)
      obtain ⟨raw, rfl⟩ := hm.exists_trim
      rw [hs, hst.eq_trim hm.ne_empty]
  refine ⟨n, hn, hna, ?_⟩
  rw [← mem_typeParents, ← typeParents_padded hp, mem_typeParents]
  exact hb

theorem transGen_of_padded (h : Padded root root') {m : Node} (hm : Lists m a)
    (ht : Relation.TransGen (ListsParent (typeElements root')) a b) :
    Relation.TransGen (ListsParent (typeElements root)) a b := by
  induction ht using Relation.TransGen.head_induction_on generalizing m with
  | single hl => exact .single (listsParent_of_padded h hm hl)
  | head hl _ ih =>
    have hp := listsParent_of_padded h hm hl
    obtain ⟨n, -, -, hn⟩ := hl
    exact .head hp (ih hn)

/-- Each name on a cycle is listed, so that padding closes none. -/
theorem acyclic_padded (h : Padded root root')
    (ha : TypeGraph.Acyclic (typeGraph (typeElements root))) :
    TypeGraph.Acyclic (typeGraph (typeElements root')) := by
  intro a hcycle
  rw [ancestor_iff_transGen] at hcycle
  obtain ⟨_, -, n, -, -, hn⟩ := Relation.TransGen.tail'_iff.mp hcycle
  exact ha a (ancestor_iff_transGen.mpr (transGen_of_padded h hn hcycle))

theorem revision_eq_error {name : String} {e : RegistryError} (h : revision n name = .error e) :
    ∃ raw, e = .unknownVersionFormat raw := by
  rw [revision_eq] at h
  split at h
  · unfold Version.parse at h
    split at h
    · cases h
    · exact ⟨_, (Except.error.inj h).symm⟩
  · cases h

theorem extension_of_padded (h : Padded n n') (hf : extension n = .ok f) :
    (∃ f', extension n' = .ok f' ∧ f.SameButVersion f') ∨
      ∃ e, (∃ raw, e = .unknownVersionFormat raw) ∧ extension n' = .error e := by
  obtain ⟨hn, -, ⟨supported, hs, hsf⟩, ha, hk, hr⟩ := extension_eq_ok_iff.mp hf
  rw [← required_padded h] at hn hs
  rw [← blockCommands_padded h] at ha
  rw [← markedKind_padded h] at hk
  cases hrev : revision n' f.name with
  | ok v =>
    exact .inl ⟨{ f with version := v },
      extension_eq_ok_iff.mpr ⟨hn, hrev, ⟨supported, hs, hsf⟩, ha, hk, hr⟩, rfl⟩
  | error e =>
    refine .inr ⟨e, revision_eq_error hrev, ?_⟩
    rw [extension, hn, ok_bind, hs, ok_bind, hrev, error_bind]

section Root

variable (h : Padded root root')
include h

theorem extensions_of_padded {xs : List Feature}
    (hx : (extensionElements root).mapM extension = .ok xs) :
    (∃ xs', (extensionElements root').mapM extension = .ok xs' ∧
      List.Forall₂ Feature.SameButVersion xs xs') ∨
    ∃ e, (∃ raw, e = .unknownVersionFormat raw) ∧
      (extensionElements root').mapM extension = .error e :=
  mapM_of_forall₂ (elementsWithin_padded h "extensions" "extension")
    (fun _ _ _ h => extension_of_padded h) hx

theorem assemble_of_padded {ds : List Declaration} {fs fs' : FeatureSet} {R : Registry}
    (hs : fs.SameButRevisions fs')
    (hR : assemble (typeGraph (typeElements root)) ds fs policy = .ok R) :
    ∃ R', assemble (typeGraph (typeElements root')) ds fs' policy = .ok R' ∧
      (∀ n, Option.Rel EntryPoint.SameButTier (R.catalog.get? n) (R'.catalog.get? n)) ∧
      R.features = fs ∧ R'.features = fs' ∧ R.policy = policy ∧ R'.policy = policy := by
  obtain ⟨ha, hc, hu⟩ := (exists_assemble_eq_ok_iff (namesParents_typeGraph _)).mp ⟨R, hR⟩
  have hu' : ∀ u, fs'.Uses u → ∃ d ∈ ds, d.name = u.name := by
    intro u hu'
    obtain ⟨u', hs', hn⟩ := hs.exists_uses hu'
    exact hn ▸ hu u' hs'
  obtain ⟨R', hR'⟩ := (exists_assemble_eq_ok_iff (namesParents_typeGraph _)).mpr
    ⟨acyclic_padded h ha, hc, hu'⟩
  obtain ⟨-, hb, -, he⟩ := of_assemble hR
  obtain ⟨-, hb', -, he'⟩ := of_assemble hR'
  refine ⟨R', hR', Catalog.sameButTier_of_build hb hb', ?_⟩
  rw [he, he']
  exact ⟨rfl, rfl, rfl, rfl⟩

theorem ofRoot_of_padded {R : Registry} (hR : ofRoot root policy = .ok R) :
    (∃ R', ofRoot root' policy = .ok R' ∧ R.Resembles R') ∨
      ∃ raw, ofRoot root' policy = .error (.unknownVersionFormat raw) := by
  obtain ⟨ht, ds, vs, xs, R₀, hds, hvs, hxs, hR₀, rfl⟩ := ofRoot_eq_ok_iff.mp hR
  rw [← h.hasTag_eq] at ht
  rw [← declarations_padded h] at hds
  rw [← apiVersions_padded h] at hvs
  have hxk : ∀ f ∈ xs, f.isExtension = true := by
    intro f hf
    obtain ⟨n, -, hn⟩ := (mem_of_mapM_eq_ok hxs).mp hf
    exact isExtension_of_extension hn
  rcases extensions_of_padded h hxs with ⟨xs', hxs', hss⟩ | ⟨e, ⟨raw, rfl⟩, hxs'⟩
  · have hs := FeatureSet.sameButRevisions_foldl hxk hss (.refl (vs.foldl FeatureSet.insert ∅))
    rw [← List.foldl_append, ← List.foldl_append] at hs
    obtain ⟨R', hR', hc, hf, hf', hp, hp'⟩ := assemble_of_padded h hs hR₀
    refine .inl ⟨_, ofRoot_eq_ok_iff.mpr ⟨ht, ds, vs, xs', R', hds, hvs, hxs', hR', rfl⟩, ?_⟩
    refine ⟨hc, ?_, hp'.trans hp.symm, ?_⟩
    · change R₀.features.SameButRevisions R'.features
      rw [hf, hf']
      exact hs
    · exact congrArg List.getLast? (headerNumbers_padded h)
  · refine .inr ⟨raw, ?_⟩
    unfold ofRoot
    simp only [ht, Bool.not_true, Bool.false_eq_true, if_false]
    change ((commandElements root').mapM declaration >>= fun ds => _) = _
    rw [hds, ok_bind, hvs, ok_bind]
    change ((extensionElements root').mapM extension >>= fun xs => _) = _
    rw [hxs', error_bind]

end Root

/-- Blanks around the values of attributes have no effect on what is read, if they spare the names
of types and what gives revisions. In any case they have none but on types, tiers and revisions,
unless they make a revision unreadable. -/
theorem read_padded (text text' : String) (root root' : Node) (policy : TierPolicy) (R : Registry)
    (ht : document? text = some root) (ht' : document? text' = some root')
    (h : Padded root root') (hR : read text policy = .ok R) :
    (Spares root root' →
      read text' policy = .ok { R with sourceDigest := some (Digest.ofText text') }) ∧
    ((∃ R', read text' policy = .ok R' ∧ R.Resembles R') ∨
      ∃ raw, read text' policy = .error (.unknownVersionFormat raw)) := by
  obtain ⟨root₀, R₀, hd, hroot, rfl⟩ := read_eq_ok_iff.mp hR
  obtain rfl : root = root₀ := Option.some.inj (ht.symm.trans hd)
  refine ⟨?spared, ?unspared⟩
  case spared =>
    intro hs
    exact read_eq_ok_iff.mpr ⟨root', R₀, ht', (ofRoot_spared h hs policy R₀).mpr hroot, rfl⟩
  case unspared =>
    rcases ofRoot_of_padded h hroot with ⟨R', hR', hr⟩ | ⟨raw, he⟩
    · exact .inl ⟨_, read_eq_ok_iff.mpr ⟨root', R', ht', hR', rfl⟩,
        ⟨hr.entries, hr.features, hr.policy, hr.specVersion⟩⟩
    · refine .inr ⟨raw, ?_⟩
      unfold read
      rw [ht']
      simp only [he, error_bind]

def revisedElement : Node :=
  .element "extension"
    [("name", "VK_EXT_drain"), ("supported", "vulkan"), ("deprecatedby", "VK_VERSION_1_0")]
    (onLines [.element "require" [] (onLines
      [.element "enum" [("name", "VK_EXT_DRAIN_SPEC_VERSION"), ("value", "\"2\"")] [],
        .element "command" [("name", "vkQueueDrain")] []])])

def waitRoot : Node :=
  .element "registry" [] (onLines
    [.element "types" [] (onLines [typeElement "VkQueue" "VkDevice"]),
      .element "commands" [] (onLines (queueElements.take 2)),
      .element "feature" [("name", "VK_VERSION_1_0"), ("number", "1.0"), ("api", "vulkan")]
        (onLines [requireElement ["vkQueueWaitIdle"]]),
      .element "extensions" [] (onLines [revisedElement])])

def waitDocument : String :=
  "<registry>
  <types>
  <type name='VkQueue' parent='VkDevice'/>
  </types>
  <commands>
  <command><proto><name>vkQueueWaitIdle</name></proto><param><type>VkQueue</type></param></command>
  <command name='vkQueueDrain' alias='vkQueueWaitIdle'/>
  </commands>
  <feature name='VK_VERSION_1_0' number='1.0' api='vulkan'>
  <require>
  <command name='vkQueueWaitIdle'/>
  </require>
  </feature>
  <extensions>
  <extension name='VK_EXT_drain' supported='vulkan' deprecatedby='VK_VERSION_1_0'>
  <require>
  <enum name='VK_EXT_DRAIN_SPEC_VERSION' value='\"2\"'/>
  <command name='vkQueueDrain'/>
  </require>
  </extension>
  </extensions>
  </registry>"

def padOthers (s : String) : String :=
  if s ∈ ["VkQueue", "VK_EXT_DRAIN_SPEC_VERSION", "\"2\""] then s else " " ++ s

def paddedDocument : String :=
  "<registry>
  <types>
  <type name='VkQueue' parent=' VkDevice'/>
  </types>
  <commands>
  <command><proto><name>vkQueueWaitIdle</name></proto><param><type>VkQueue</type></param></command>
  <command name=' vkQueueDrain' alias=' vkQueueWaitIdle'/>
  </commands>
  <feature name=' VK_VERSION_1_0' number=' 1.0' api=' vulkan'>
  <require>
  <command name=' vkQueueWaitIdle'/>
  </require>
  </feature>
  <extensions>
  <extension name=' VK_EXT_drain' supported=' vulkan' deprecatedby=' VK_VERSION_1_0'>
  <require>
  <enum name='VK_EXT_DRAIN_SPEC_VERSION' value='\"2\"'/>
  <command name=' vkQueueDrain'/>
  </require>
  </extension>
  </extensions>
  </registry>"

def padAt (x s : String) : String := if s = x then " " ++ s else s

def unlinkedDocument : String :=
  "<registry>
  <types>
  <type name=' VkQueue' parent='VkDevice'/>
  </types>
  <commands>
  <command><proto><name>vkQueueWaitIdle</name></proto><param><type>VkQueue</type></param></command>
  <command name='vkQueueDrain' alias='vkQueueWaitIdle'/>
  </commands>
  <feature name='VK_VERSION_1_0' number='1.0' api='vulkan'>
  <require>
  <command name='vkQueueWaitIdle'/>
  </require>
  </feature>
  <extensions>
  <extension name='VK_EXT_drain' supported='vulkan' deprecatedby='VK_VERSION_1_0'>
  <require>
  <enum name='VK_EXT_DRAIN_SPEC_VERSION' value='\"2\"'/>
  <command name='vkQueueDrain'/>
  </require>
  </extension>
  </extensions>
  </registry>"

set_option maxRecDepth 4000 in
theorem document?_waitDocument : document? waitDocument = some waitRoot :=
  (document?_ofList _).trans (by decide +kernel)

set_option maxRecDepth 4000 in
theorem document?_paddedDocument : document? paddedDocument = some (waitRoot.mapValues padOthers) :=
  (document?_ofList _).trans (by decide +kernel)

set_option maxRecDepth 4000 in
theorem document?_unlinkedDocument :
    document? unlinkedDocument = some (waitRoot.mapValues (padAt "VkQueue")) :=
  (document?_ofList _).trans (by decide +kernel)

theorem pads_append (l s : String) (hl : l.toList.all isBlank) :
    Pads s.toList (l ++ s).toList :=
  ⟨l.toList, [], List.all_eq_true.mp hl, nofun, by simp⟩

example : trim (" " ++ "VkQueue") = "VkQueue" := by decide +kernel

theorem pads_padOthers (s : String) : Pads s.toList (padOthers s).toList := by
  unfold padOthers
  split
  · exact .refl _
  · exact pads_append " " s (by decide)

theorem pads_padAt (x s : String) : Pads s.toList (padAt x s).toList := by
  unfold padAt
  split
  · exact pads_append " " s (by decide)
  · exact .refl _

def waitCommands : List Declaration := orderedCommands.take 2

def waitVersion : Feature := { queueVersion with adds := .ofList ["vkQueueWaitIdle"] }

def waitExtension : Feature :=
  { drainExtension with kind := .extension true (some "VK_VERSION_1_0"), version := ⟨2, 0⟩ }

def waitFeatures : FeatureSet := [waitVersion, waitExtension].foldl FeatureSet.insert ∅

/-- The commands with the tier `t`, and a queue type of the given name below devices. -/
def waitRegistry (name : String) (t : Tier) : Registry where
  types := .ofList [⟨name, .ofList ["VkDevice"]⟩]
  catalog := .ofList (waitCommands.map (⟨·, "vkQueueWaitIdle", some "VkQueue", t⟩))
  features := waitFeatures
  policy := .vulkan

theorem extension_revisedElement : extension revisedElement = .ok waitExtension := by
  refine extension_eq_ok_iff.mpr ⟨by decide +kernel, ?_,
    ⟨"vulkan", by decide +kernel, by decide +kernel⟩, by decide +kernel, by decide +kernel, rfl⟩
  rw [revision_eq, uppercase_of_ascii (by decide)]
  decide +kernel

section WaitRegistry

variable {root : Node} {text name : String} {types : TypeGraph} {t : Tier}

/-- Both commands are one entry point, with the tier of the first. -/
theorem build_waitCommands
    (h : TierPolicy.vulkan.classify types "vkQueueWaitIdle" (some "VkQueue") = .ok t) :
    Catalog.build waitCommands types .vulkan = .ok (waitRegistry name t).catalog := by
  have hf : ∀ d ∈ waitCommands, (Declarations.ofList waitCommands).follow maxAliasDepth d.name =
      .canonical "vkQueueWaitIdle" (some "VkQueue") := by
    decide +kernel
  have he : ∀ d ∈ waitCommands, Catalog.enter (.ofList waitCommands) types .vulkan d =
      .ok ⟨d, "vkQueueWaitIdle", some "VkQueue", t⟩ := by
    intro d hd
    simp only [Catalog.enter, hf d hd, h, ok_bind]
    rfl
  have hl : (Declarations.ofList waitCommands).toList = waitCommands.reverse := by decide +kernel
  have hm : waitCommands.reverse.mapM (Catalog.enter (.ofList waitCommands) types .vulkan) =
      .ok (waitCommands.reverse.map (⟨·, "vkQueueWaitIdle", some "VkQueue", t⟩)) := by
    refine mapM_eq_ok_iff.mpr (List.forall₂_map_right_iff.mpr (List.forall₂_same.mpr ?_))
    simpa using he
  rw [Catalog.build, hl, hm, ok_bind]
  change Except.ok (Roster.ofList _) = .ok (Roster.ofList _)
  cases t <;> decide +kernel

theorem assemble_waitRegistry (hc : (waitRegistry name t).types.checkAcyclic = .ok ())
    (hb : Catalog.build waitCommands (waitRegistry name t).types .vulkan =
      .ok (waitRegistry name t).catalog) :
    assemble (waitRegistry name t).types waitCommands waitFeatures .vulkan =
      .ok (waitRegistry name t) := by
  have hu : ∀ u, waitFeatures.Uses u → ∃ d ∈ waitCommands, d.name = u.name :=
    of_uses (P := fun n => ∃ d ∈ waitCommands, d.name = n) (by decide)
  exact assemble_of_contains hc hb fun u h => (Catalog.contains_of_build hb).mpr (hu u h)

theorem read_waitRegistry (hd : document? text = some root)
    (hg : typeGraph (typeElements root) = (waitRegistry name t).types)
    (hds : (commandElements root).mapM declaration = .ok waitCommands)
    (hv : (root.elements "feature").mapM apiVersion = .ok [waitVersion])
    (hx : extensionElements root = [revisedElement])
    (hn : (root.hasTag "registry", (typeElements root).filterMap headerNumber?) = (true, []))
    (hR : assemble (waitRegistry name t).types waitCommands waitFeatures .vulkan =
      .ok (waitRegistry name t)) :
    read text .vulkan =
      .ok { waitRegistry name t with sourceDigest := some (Digest.ofText text) } := by
  rw [Prod.mk.injEq] at hn
  rw [← hg] at hR
  have hx' : (extensionElements root).mapM extension = .ok [waitExtension] := by
    rw [hx]
    exact mapM_eq_ok_iff.mpr (.cons extension_revisedElement .nil)
  refine read_eq_ok_iff.mpr ⟨root, waitRegistry name t, hd, ofRoot_eq_ok_iff.mpr
    ⟨hn.1, waitCommands, [waitVersion], [waitExtension], _, hds, hv, hx', hR, ?_⟩, rfl⟩
  rw [hn.2]
  rfl

end WaitRegistry

theorem read_waitDocument : read waitDocument .vulkan = .ok
    { waitRegistry "VkQueue" .scopeB with
      sourceDigest := some (Digest.ofText waitDocument) } := by
  apply read_waitRegistry document?_waitDocument
  · decide +kernel
  · decide +kernel
  · decide +kernel
  · rfl
  · decide +kernel
  · exact assemble_waitRegistry (by cbv) (build_waitCommands (by cbv))

theorem read_unlinkedDocument : read unlinkedDocument .vulkan = .ok
    { waitRegistry " VkQueue" .scopeA with
      sourceDigest := some (Digest.ofText unlinkedDocument) } := by
  apply read_waitRegistry document?_unlinkedDocument
  · decide +kernel
  · decide +kernel
  · decide +kernel
  · rfl
  · decide +kernel
  · exact assemble_waitRegistry (by cbv) (build_waitCommands (by cbv))

theorem spares_padOthers : Spares waitRoot (waitRoot.mapValues padOthers) := by
  constructor
  · decide +kernel
  · refine .cons (fun name hn => ?_) .nil
    refine .cons ?_ .nil
    constructor
    · intro h
      rw [← h]
      decide +kernel
    · intro h
      exact .some ⟨[], [], nofun, nofun, rfl, fun _ => rfl, fun _ => rfl⟩

/-- All values of the document but three are padded, and nothing but the digest changes. -/
theorem read_paddedDocument : document? waitDocument = some waitRoot ∧
    document? paddedDocument = some (waitRoot.mapValues padOthers) ∧
    Padded waitRoot (waitRoot.mapValues padOthers) ∧
    Spares waitRoot (waitRoot.mapValues padOthers) ∧
    ∃ R, read waitDocument .vulkan = .ok R ∧
      read paddedDocument .vulkan =
        .ok { R with sourceDigest := some (Digest.ofText paddedDocument) } := by
  have h := padded_mapValues pads_padOthers waitRoot
  refine ⟨document?_waitDocument, document?_paddedDocument, h, spares_padOthers, _,
    read_waitDocument, ?_⟩
  exact (read_padded _ _ _ _ _ _ document?_waitDocument document?_paddedDocument h
    read_waitDocument).1 spares_padOthers

/-- A blank before the name of a type moves a command to the first scope. One before the name of a
constant loses a revision, and one before a quote makes it unreadable. -/
theorem padding_noticed :
    (∃ root root' R R', document? waitDocument = some root ∧
      document? unlinkedDocument = some root' ∧ Padded root root' ∧
      read waitDocument .vulkan = .ok R ∧ read unlinkedDocument .vulkan = .ok R' ∧
      R.catalog.tierOf "vkQueueWaitIdle" = some .scopeB ∧
      R'.catalog.tierOf "vkQueueWaitIdle" = some .scopeA) ∧
    extension revisedElement = .ok waitExtension ∧
    (∃ n, Padded revisedElement n ∧ extension n = .ok { waitExtension with version := {} }) ∧
    ∃ n, Padded revisedElement n ∧ extension n = .error (.unknownVersionFormat " \"2") := by
  refine ⟨⟨_, _, _, _, document?_waitDocument, document?_unlinkedDocument,
    padded_mapValues (pads_padAt _) _, read_waitDocument, read_unlinkedDocument, ?_, ?_⟩,
    ?_, ⟨_, padded_mapValues (pads_padAt "VK_EXT_DRAIN_SPEC_VERSION") _, ?_⟩,
    ⟨_, padded_mapValues (pads_padAt "\"2\"") _, ?_⟩⟩
  · decide +kernel
  · decide +kernel
  · exact extension_revisedElement
  · decide +kernel
  · decide +kernel

end Registry

end LoadTiers
