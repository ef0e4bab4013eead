import LoadTiers.Proofs.Markup.Order
import LoadTiers.Proofs.Markup.Padding

/-! # Revisions of extensions

The revision of an extension is the value of the constant that has the name of the extension in
capitals, wherever in its blocks the constant stands. A constant that is named after something else
is none of its revision.
-/

namespace LoadTiers.Registry

open Text Xml

variable {n root : Node} {name constant raw text : String} {policy : TierPolicy} {R : Registry}
  {before after : List Node}

/-- The name of the constant that gives the revision of an extension. -/
def constantName (name : String) : String := uppercase name ++ "_SPEC_VERSION"

def unquoted (raw : String) : String := .ofList (trimBy (· == '"') raw.toList)

/-- The first constant of a name in an extension, with its value. -/
def Gives (n : Node) (constant raw : String) : Prop :=
  ∃ earlier e later, elementsWithin n "require" "enum" = earlier ++ e :: later ∧
    (∀ m ∈ earlier, m.attribute? "name" ≠ some constant) ∧
    e.attribute? "name" = some constant ∧ e.attribute? "value" = some raw

/-- The constants in an extension that look like revisions, be it of the extension or of something
else. -/
def revisionConstants (n : Node) : List Node :=
  (elementsWithin n "require" "enum").filter fun e =>
    (e.attribute? "name").any ("_SPEC_VERSION".toList.isSuffixOf ·.toList) &&
      (e.attribute? "value").isSome

/-- What is left of a name without underscores and blanks. -/
def letters (s : String) : List Char := s.toList.filter fun c => c != '_' && !isBlank c

/-- The constant is named after something else than the extension. Names that differ in underscores
or blanks only do not count as other names. -/
def NamedOtherwise (name : String) (e : Node) : Prop :=
  ∀ s ∈ e.attribute? "name", letters s ≠ letters (constantName name)

instance (name : String) (e : Node) : Decidable (NamedOtherwise name e) :=
  inferInstanceAs (Decidable (∀ s ∈ e.attribute? "name", letters s ≠ letters (constantName name)))

theorem gives_iff : Gives n constant raw ↔
    ∃ e, constant? n constant = some e ∧ e.attribute? "value" = some raw := by
  constructor
  · rintro ⟨earlier, e, later, hs, hb, hn, hv⟩
    refine ⟨e, ?_, hv⟩
    rw [constant?, List.find?_eq_some_iff_append]
    refine ⟨beq_iff_eq.mpr hn, earlier, later, hs, fun m hm => ?_⟩
    simpa using hb m hm
  · rintro ⟨e, he, hv⟩
    obtain ⟨hn, earlier, later, hs, hb⟩ := List.find?_eq_some_iff_append.mp he
    refine ⟨earlier, e, later, hs, fun m hm => ?_, beq_iff_eq.mp hn, hv⟩
    simpa using hb m hm

theorem revision_of_gives (h : Gives n (constantName name) raw) :
    revision n name = Version.parse (unquoted raw) := by
  obtain ⟨e, he, hv⟩ := gives_iff.mp h
  rw [revision_eq, ← constantName, he, Option.bind_some, hv]
  rfl

theorem mem_revisionConstants_of_gives (h : Gives n (constantName name) raw) :
    ∃ e ∈ revisionConstants n, e.attribute? "name" = some (constantName name) := by
  obtain ⟨earlier, e, later, hs, -, hn, hv⟩ := h
  have hm : e ∈ elementsWithin n "require" "enum" := by simp [hs]
  refine ⟨e, List.mem_filter.mpr ⟨hm, ?_⟩, hn⟩
  simp [hn, hv, constantName]

theorem revision_of_not_gives (h : ∀ raw, ¬ Gives n (constantName name) raw) :
    revision n name = .ok {} := by
  have hc : (constant? n (constantName name)).bind (·.attribute? "value") = none := by
    rw [Option.eq_none_iff_forall_ne_some]
    intro raw hv
    exact h raw (gives_iff.mpr (Option.bind_eq_some_iff.mp hv))
  rw [revision_eq, ← constantName, hc]

theorem revision_of_namedOtherwise (h : ∀ e ∈ revisionConstants n, NamedOtherwise name e) :
    revision n name = .ok {} := by
  apply revision_of_not_gives
  intro raw hg
  obtain ⟨e, he, hn⟩ := mem_revisionConstants_of_gives hg
  exact h e he _ hn rfl

theorem filled?_name_of_mem {ms : List Node} {fs : List Feature} {f : Feature}
    (h : ms.mapM extension = .ok fs) (hf : f ∈ fs) : ∃ m ∈ ms, filled? m "name" = some f.name := by
  obtain ⟨m, hm, hx⟩ := (mem_of_mapM_eq_ok h).mp hf
  exact ⟨m, hm, required_eq_ok_iff.mp (extension_eq_ok_iff.mp hx).1⟩

theorem extension?_of_read (hd : document? text = some root) (hR : read text policy = .ok R)
    (hn : extensionElements root = before ++ n :: after) : ∃ f, extension n = .ok f ∧
      ((∀ m ∈ after, filled? m "name" ≠ some f.name) →
        R.features.extension? f.name = some f) := by
  obtain ⟨root₀, R₁, hd₀, hroot, rfl⟩ := read_eq_ok_iff.mp hR
  obtain rfl : root = root₀ := Option.some.inj (hd.symm.trans hd₀)
  obtain ⟨-, ds, vs, xs, R₀, -, -, hx, hR₀, rfl⟩ := ofRoot_eq_ok_iff.mp hroot
  rw [hn] at hx
  obtain ⟨ys, f, zs, -, hf, hz, rfl⟩ := mapM_append_cons_eq_ok hx
  refine ⟨f, hf, fun hl => ?_⟩
  obtain ⟨-, -, -, he⟩ := of_assemble hR₀
  -- Only a later extension of the same name could have taken its place.
  have hz' : zs.reverse.find? (fun g => g.isExtension && g.name == f.name) = none := by
    rw [List.find?_eq_none]
    intro g hg hp
    obtain ⟨m, hm, hname⟩ := filled?_name_of_mem hz (List.mem_reverse.mp hg)
    rw [Bool.and_eq_true, beq_iff_eq] at hp
    exact hl m hm (hp.2 ▸ hname)
  change R₀.features.extension? f.name = some f
  rw [he, ← List.append_assoc, List.foldl_append, FeatureSet.extension?_foldl_insert,
    List.reverse_cons, List.find?_append, hz', Option.none_or,
    List.find?_cons_of_pos (by simp [isExtension_of_extension hf]), Option.some_or]

/-- The revision of each extension that is read is the value of the constant that is named after it.
It is `0.0` if all constants that look like revisions are named after something else. -/
theorem read_revision (text : String) (policy : TierPolicy) (root : Node) (R : Registry)
    (hd : document? text = some root) (hR : read text policy = .ok R) (before after : List Node)
    (n : Node) (hn : extensionElements root = before ++ n :: after) :
    ∃ f, extension n = .ok f ∧ filled? n "name" = some f.name ∧
      ((∀ m ∈ after, filled? m "name" ≠ some f.name) →
        R.features.extension? f.name = some f) ∧
      (∀ raw, Gives n (constantName f.name) raw →
        Version.parse (unquoted raw) = .ok f.version) ∧
      ((∀ e ∈ revisionConstants n, NamedOtherwise f.name e) → f.version = {}) := by
  obtain ⟨f, hf, hlast⟩ := extension?_of_read hd hR hn
  obtain ⟨hname, hrev, -⟩ := extension_eq_ok_iff.mp hf
  refine ⟨f, hf, required_eq_ok_iff.mp hname, hlast, ?value, ?absent⟩
  case value =>
    intro raw hg
    rw [← revision_of_gives hg]
    exact hrev
  case absent =>
    intro ho
    rw [revision_of_namedOtherwise ho] at hrev
    exact (Except.ok.inj hrev).symm

def constantElement (name : String) (constants : List (List (String × String))) : Node :=
  .element "extension" [("name", name), ("supported", "vulkan")]
    (onLines [.element "require" [] (onLines (constants.map (.element "enum" · [])))])

/-- An extension with its own constant, one with that of something else, one with a number in its
name, and one with a constant that has no value at first. -/
def constantElements : List Node :=
  [constantElement "VK_EXT_drain" [[("name", "VK_EXT_DRAIN_SPEC_VERSION"), ("value", "\"2\"")]],
    constantElement "VK_EXT_fill" [[("name", "VK_EXT_WATER_SPEC_VERSION"), ("value", "3")]],
    constantElement "VK_KHR_maintenance1"
      [[("name", "VK_KHR_MAINTENANCE_1_SPEC_VERSION"), ("value", "2")]],
    constantElement "VK_EXT_spill" [[("name", "VK_EXT_SPILL_SPEC_VERSION")],
      [("name", "VK_EXT_SPILL_SPEC_VERSION"), ("value", "4")]]]

def constantDocument : String :=
  "<registry>
  <extensions>
  <extension name='VK_EXT_drain' supported='vulkan'>
  <require>
  <enum name='VK_EXT_DRAIN_SPEC_VERSION' value='\"2\"'/>
  </require>
  </extension>
  <extension name='VK_EXT_fill' supported='vulkan'>
  <require>
  <enum name='VK_EXT_WATER_SPEC_VERSION' value='3'/>
  </require>
  </extension>
  <extension name='VK_KHR_maintenance1' supported='vulkan'>
  <require>
  <enum name='VK_KHR_MAINTENANCE_1_SPEC_VERSION' value='2'/>
  </require>
  </extension>
  <extension name='VK_EXT_spill' supported='vulkan'>
  <require>
  <enum name='VK_EXT_SPILL_SPEC_VERSION'/>
  <enum name='VK_EXT_SPILL_SPEC_VERSION' value='4'/>
  </require>
  </extension>
  </extensions>
  </registry>"

def constantRoot : Node :=
  .element "registry" [] (onLines [.element "extensions" [] (onLines constantElements)])

def constantExtensions : List Feature :=
  [("VK_EXT_drain", ⟨2, 0⟩), ("VK_EXT_fill", {}), ("VK_KHR_maintenance1", {}),
    ("VK_EXT_spill", {})].map fun x =>
      { name := x.1, kind := .extension false none, version := x.2, flavors := .ofList ["vulkan"] }

def constantRegistry : Registry where
  types := ∅
  catalog := ∅
  features := constantExtensions.foldl FeatureSet.insert ∅
  policy := .vulkan

set_option maxRecDepth 4000 in
theorem document?_constantDocument : document? constantDocument = some constantRoot :=
  (document?_ofList _).trans (by decide +kernel)

theorem extensionElements_constantRoot : extensionElements constantRoot = constantElements := rfl

theorem extensions_constantElements : constantElements.mapM extension = .ok constantExtensions := by
  refine mapM_eq_ok_iff.mpr (.cons ?_ (.cons ?_ (.cons ?_ (.cons ?_ .nil))))
  all_goals
    refine extension_eq_ok_iff.mpr ⟨by decide +kernel, ?_,
      ⟨"vulkan", by decide +kernel, by decide +kernel⟩, by decide +kernel, rfl, rfl⟩
    -- the capitals of ASCII are known without a search through their table
    rw [revision_eq, uppercase_of_ascii (by decide)]
    decide +kernel

theorem read_constantDocument : read constantDocument .vulkan = .ok
    { constantRegistry with sourceDigest := some (Digest.ofText constantDocument) } := by
  have hu : ∀ u, constantRegistry.features.Uses u → constantRegistry.catalog.contains u.name :=
    of_uses (P := fun n => constantRegistry.catalog.contains n) (by decide)
  refine read_eq_ok_iff.mpr ⟨_, constantRegistry, document?_constantDocument, ofRoot_eq_ok_iff.mpr
    ⟨rfl, [], [], constantExtensions, constantRegistry, rfl, rfl, extensions_constantElements,
      assemble_of_contains (by cbv) (by cbv) hu, rfl⟩, rfl⟩

/-- One extension has the value of its constant, and one that has but the constant of something else
has none. -/
theorem read_revision_constantDocument : document? constantDocument = some constantRoot ∧
    ∃ R f f', read constantDocument .vulkan = .ok R ∧
      extensionElements constantRoot = constantElements ∧
      R.features.extension? "VK_EXT_drain" = some f ∧ f.version = ⟨2, 0⟩ ∧
      R.features.extension? "VK_EXT_fill" = some f' ∧ f'.version = {} := by
  obtain ⟨f, -, hn, hf, hv, -⟩ := read_revision _ _ _ _ document?_constantDocument
    read_constantDocument [] _ _ extensionElements_constantRoot
  obtain ⟨f', -, hn', hf', -, ho⟩ := read_revision _ _ _ _ document?_constantDocument
    read_constantDocument [_] _ _ extensionElements_constantRoot
  have hname : "VK_EXT_drain" = f.name := Option.some.inj hn
  have hname' : "VK_EXT_fill" = f'.name := Option.some.inj hn'
  rw [← hname] at hf hv
  rw [← hname'] at hf' ho
  refine ⟨document?_constantDocument, _, f, f', read_constantDocument,
    extensionElements_constantRoot, hf (by decide), ?_, hf' (by decide), ho (by decide +kernel)⟩
  have hg := hv "\"2\"" ⟨[], _, [], rfl, nofun, by decide +kernel, rfl⟩
  have hp : Version.parse (unquoted "\"2\"") = .ok ⟨2, 0⟩ := by decide +kernel
  exact Except.ok.inj (hg.symm.trans hp)

/-- A constant is not found under the name of something else, nor with an underscore before a
number, nor after one without a value. -/
theorem constants_unnoticed : document? constantDocument = some constantRoot ∧
    ∃ R, read constantDocument .vulkan = .ok R ∧
      ∀ x ∈ [("VK_EXT_fill", (⟨3, 0⟩ : Version)), ("VK_KHR_maintenance1", ⟨2, 0⟩),
          ("VK_EXT_spill", ⟨4, 0⟩)],
        ∃ n ∈ extensionElements constantRoot, filled? n "name" = some x.1 ∧
          (revisionConstants n).map (fun e => (e.attribute? "value").map Version.parse) =
            [some (.ok x.2)] ∧
          (R.features.extension? x.1).map (·.version) = some {} := by
  refine ⟨document?_constantDocument, _, read_constantDocument, ?_⟩
  rw [extensionElements_constantRoot]
  decide +kernel

end LoadTiers.Registry
