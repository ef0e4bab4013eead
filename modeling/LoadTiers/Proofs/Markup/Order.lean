import LoadTiers.Proofs.Acceptance
import LoadTiers.Proofs.Markup.Parts
import LoadTiers.Resolution
import Mathlib.Data.List.Nodup
import Mathlib.Data.List.Perm.Basic

/-! # The order of a document

What is read from a document does not depend on the order of its elements, nor on the sections that
they stand in. Each step of a reading commutes with the next one, as long as no name is declared
twice; only types may be.
-/

namespace LoadTiers

theorem Roster.insert_comm {α : Type} {name : α → String} {x y : α} (h : name x ≠ name y)
    (r : Roster name) : (r.insert x).insert y = (r.insert y).insert x := by
  refine Roster.ext_get? fun n => ?_
  simp only [Roster.get?_insert]
  by_cases hx : n = name x
  · simp [hx, h]
  · simp [hx]

theorem NameSet.union_right_comm (s t u : NameSet) : s ∪ t ∪ u = s ∪ u ∪ t :=
  NameSet.ext fun n => by simp only [NameSet.mem_union, or_right_comm]

/-- The parents of one type add up, and those of different types do not meet. -/
theorem TypeGraph.declare_comm (g : TypeGraph) (a b : String) (ps qs : NameSet) :
    (g.declare a ps).declare b qs = (g.declare b qs).declare a ps := by
  by_cases h : b = a
  · subst h
    refine Roster.ext_get? fun n => ?_
    simp only [declare, Roster.get?_insert]
    split
    · simp [parents, Roster.get?_insert, NameSet.union_right_comm]
    · rfl
  · rw [declare, parents_declare, if_neg h, declare, declare, parents_declare, if_neg (Ne.symm h),
      declare, Roster.insert_comm (Ne.symm h)]

section Features

variable {f g : Feature} {vs vs' xs xs' : List Feature}

theorem FeatureSet.insert_comm (h : f.isExtension = g.isExtension → f.name ≠ g.name)
    (s : FeatureSet) : (s.insert f).insert g = (s.insert g).insert f := by
  unfold insert
  by_cases hf : f.isExtension <;> by_cases hg : g.isExtension
  · simp [hf, hg, Roster.insert_comm (h (hf.trans hg.symm))]
  · simp [hf, hg]
  · simp [hf, hg]
  · simp [hf, hg, Roster.insert_comm (h (by simp [hf, hg]))]

theorem FeatureSet.foldl_insert_perm (hv : vs.Perm vs') (hx : xs.Perm xs')
    (hvk : ∀ f ∈ vs, f.isExtension = false) (hxk : ∀ f ∈ xs, f.isExtension = true)
    (hvn : (vs.map (·.name)).Nodup) (hxn : (xs.map (·.name)).Nodup) (s : FeatureSet) :
    (vs ++ xs).foldl insert s = (vs' ++ xs').foldl insert s := by
  refine (hv.append hx).foldl_eq' (fun f hf g hg s => ?_) s
  by_cases he : f = g
  · rw [he]
  · refine insert_comm (fun hk hn => he ?_) s
    rcases List.mem_append.mp hf with hf | hf <;> rcases List.mem_append.mp hg with hg | hg
    · exact List.inj_on_of_nodup_map hvn hf hg hn
    · simp [hvk f hf, hxk g hg] at hk
    · simp [hxk f hf, hvk g hg] at hk
    · exact List.inj_on_of_nodup_map hxn hf hg hn

end Features

section Declarations

variable {d d' : Declaration} {ds ds' : List Declaration}

theorem keepFirst_comm (h : d.name ≠ d'.name) (seen : Declarations) :
    [d, d'].foldl (fun seen d => if seen.contains d.name then seen else seen.insert d) seen =
      [d', d].foldl (fun seen d => if seen.contains d.name then seen else seen.insert d) seen := by
  refine Roster.ext_get? fun n => ?_
  rw [get?_keepFirst, get?_keepFirst]
  congr 1
  by_cases hn : d.name = n <;> by_cases hn' : d'.name = n <;> simp_all

theorem Declarations.ofList_perm (hn : (ds.map (·.name)).Nodup) (h : ds.Perm ds') :
    Declarations.ofList ds = Declarations.ofList ds' := by
  refine h.foldl_eq' (fun d hd d' hd' seen => ?_) ∅
  by_cases he : d = d'
  · rw [he]
  · exact keepFirst_comm (fun h => he (List.inj_on_of_nodup_map hn hd hd' h)) seen

theorem Catalog.build_perm (hn : (ds.map (·.name)).Nodup) (h : ds.Perm ds') (types : TypeGraph)
    (policy : TierPolicy) : build ds types policy = build ds' types policy := by
  unfold build
  rw [Declarations.ofList_perm hn h]

end Declarations

theorem mapM_perm {α β ε : Type} {f : α → Except ε β} {l l' : List α} {ys : List β}
    (h : l.mapM f = .ok ys) (hl : l.Perm l') : ∃ ys', l'.mapM f = .ok ys' ∧ ys.Perm ys' := by
  obtain ⟨ys', hys, hp⟩ := List.perm_comp_forall₂ hl.symm (mapM_eq_ok_iff.mp h)
  exact ⟨ys', mapM_eq_ok_iff.mpr hys, hp.symm⟩

theorem getLast?_perm {α : Type} {l l' : List α} (h : l.Perm l') (hl : l.length ≤ 1) :
    l.getLast? = l'.getLast? := by
  match l with
  | [] => rw [List.nil_perm.mp h]
  | [x] => rw [List.singleton_perm.mp h]

namespace Registry

open Xml

variable {root root' n : Node} {types types' : List Node} {f : Feature} {policy : TierPolicy}

theorem typeGraph_perm (h : types.Perm types') : typeGraph types = typeGraph types' := by
  refine h.foldl_eq' (fun m _ n _ g => ?_) ∅
  cases typeName? m <;> cases typeName? n
  · rfl
  · rfl
  · rfl
  · exact TypeGraph.declare_comm ..

theorem isExtension_of_apiVersion (h : apiVersion n = .ok f) : f.isExtension = false := by
  simp only [apiVersion, bind_eq_ok_iff] at h
  obtain ⟨_, -, _, -, _, -, _, -, _, -, _, -, h⟩ := h
  cases h
  rfl

theorem isExtension_of_extension (h : extension n = .ok f) : f.isExtension = true := by
  simp only [extension, bind_eq_ok_iff] at h
  obtain ⟨_, -, _, -, _, -, _, -, h⟩ := h
  cases h
  split <;> rfl

/-- Each of the elements can be read by itself, and no two of them have one name. -/
def ReadApart {α : Type} (read : Node → Except RegistryError α) (name : α → String)
    (ns : List Node) : Prop :=
  ∃ xs, ns.mapM read = .ok xs ∧ (xs.map name).Nodup

/-- What is declared is declared well and once, and there is one header number at most. Types may
be declared again and again. -/
structure DeclaredOnce (root : Node) : Prop where
  commands : ReadApart declaration (·.name) (commandElements root)
  versions : ReadApart apiVersion (·.name) (root.elements "feature")
  extensions : ReadApart extension (·.name) (extensionElements root)
  header : ((typeElements root).filterMap headerNumber?).length ≤ 1

/-- Both documents hold the same elements, in whatever order and sections. -/
structure SameElements (root root' : Node) : Prop where
  types : (typeElements root).Perm (typeElements root')
  commands : (commandElements root).Perm (commandElements root')
  versions : (root.elements "feature").Perm (root'.elements "feature")
  extensions : (extensionElements root).Perm (extensionElements root')

/-- Readings that come to the same, but for the digests of the texts. -/
inductive ReadAlike : Except RegistryError Registry → Except RegistryError Registry → Prop

  | registry (R : Registry) (digest : Option String) :
      ReadAlike (.ok R) (.ok { R with sourceDigest := digest })

  | refused (e : RegistryError) : ReadAlike (.error e) (.error e)

theorem ofRoot_eq_assemble {ds : List Declaration} {vs xs : List Feature}
    (ht : root.hasTag "registry") (hc : (commandElements root).mapM declaration = .ok ds)
    (hv : (root.elements "feature").mapM apiVersion = .ok vs)
    (hx : (extensionElements root).mapM extension = .ok xs) :
    ofRoot root policy =
      assemble (typeGraph (typeElements root)) ds ((vs ++ xs).foldl FeatureSet.insert ∅) policy >>=
        fun R => .ok { R with
          specVersion := ((typeElements root).filterMap headerNumber?).getLast? } := by
  unfold ofRoot
  simp only [ht, Bool.not_true, Bool.false_eq_true, if_false]
  change ((commandElements root).mapM declaration >>= fun ds => _) = _
  rw [hc, ok_bind, hv, ok_bind]
  change ((extensionElements root).mapM extension >>= fun xs => _) = _
  rw [hx]
  rfl

theorem ofRoot_perm (ht : root.hasTag "registry") (ht' : root'.hasTag "registry")
    (hd : DeclaredOnce root) (hs : SameElements root root') :
    ofRoot root policy = ofRoot root' policy := by
  obtain ⟨ds, hc, hcn⟩ := hd.commands
  obtain ⟨vs, hv, hvn⟩ := hd.versions
  obtain ⟨xs, hx, hxn⟩ := hd.extensions
  obtain ⟨ds', hc', hcp⟩ := mapM_perm hc hs.commands
  obtain ⟨vs', hv', hvp⟩ := mapM_perm hv hs.versions
  obtain ⟨xs', hx', hxp⟩ := mapM_perm hx hs.extensions
  have hvk : ∀ f ∈ vs, f.isExtension = false := by
    intro f hf
    obtain ⟨n, -, hn⟩ := (mem_of_mapM_eq_ok hv).mp hf
    exact isExtension_of_apiVersion hn
  have hxk : ∀ f ∈ xs, f.isExtension = true := by
    intro f hf
    obtain ⟨n, -, hn⟩ := (mem_of_mapM_eq_ok hx).mp hf
    exact isExtension_of_extension hn
  have hh : ((typeElements root).filterMap headerNumber?).getLast? =
      ((typeElements root').filterMap headerNumber?).getLast? :=
    getLast?_perm (hs.types.filterMap _) hd.header
  rw [ofRoot_eq_assemble ht hc hv hx, ofRoot_eq_assemble ht' hc' hv' hx', hh,
    typeGraph_perm hs.types, FeatureSet.foldl_insert_perm hvp hxp hvk hxk hvn hxn]
  unfold assemble
  rw [Catalog.build_perm hcn hcp]

theorem ReadAlike.resolve_eq {x y : Except RegistryError Registry} (h : ReadAlike x y)
    (q : Request) : (x >>= fun R => R.resolve q) = y >>= fun R => R.resolve q := by
  cases h <;> rfl

/-- Documents with the same elements are read alike, whatever order and sections the elements stand
in, and so all requests to what is read have the same answers. -/
theorem read_reordered (text text' : String) (root root' : Node) (policy : TierPolicy)
    (h : document? text = some root) (h' : document? text' = some root')
    (ht : root.hasTag "registry") (ht' : root'.hasTag "registry")
    (hd : DeclaredOnce root) (hs : SameElements root root') :
    ReadAlike (read text policy) (read text' policy) ∧
      ∀ q : Request, (read text policy >>= fun R => R.resolve q) =
        read text' policy >>= fun R => R.resolve q := by
  have ha : ReadAlike (read text policy) (read text' policy) := by
    unfold read
    simp only [h, h', ofRoot_perm ht ht' hd hs]
    cases ofRoot root' policy with
    | error e => exact .refused e
    | ok R => exact .registry { R with sourceDigest := _ } _
  exact ⟨ha, ha.resolve_eq⟩

def onLines (nodes : List Node) : List Node :=
  .text "\n  " :: nodes.flatMap fun node => [node, .text "\n  "]

def typeElement (name parent : String) : Node :=
  .element "type" [("name", name), ("parent", parent)] []

def commandElement (name : String) (params : List Node) : Node :=
  .element "command" [] (.element "proto" [] [.element "name" [] [.text name]] :: params)

def requireElement (names : List String) : Node :=
  .element "require" [] (onLines (names.map fun name => .element "command" [("name", name)] []))

/-- A command on queues, another name of it, and the loader of both. -/
def queueElements : List Node :=
  [commandElement "vkQueueWaitIdle" [.element "param" [] [.element "type" [] [.text "VkQueue"]]],
    .element "command" [("name", "vkQueueDrain"), ("alias", "vkQueueWaitIdle")] [],
    commandElement "vkGetInstanceProcAddr" []]

def queueVersionElement : Node :=
  .element "feature" [("name", "VK_VERSION_1_0"), ("number", "1.0"), ("api", "vulkan")]
    (onLines [requireElement ["vkQueueWaitIdle", "vkGetInstanceProcAddr"]])

def drainElement : Node :=
  .element "extension" [("name", "VK_EXT_drain"), ("supported", "vulkan")]
    (onLines [requireElement ["vkQueueDrain"]])

def orderedDocument : String :=
  "<registry>
  <types>
  <type name=\"VkDevice\" parent=\"VkInstance\"/>
  <type name=\"VkQueue\" parent=\"VkDevice\"/>
  </types>
  <commands>
  <command><proto><name>vkQueueWaitIdle</name></proto><param><type>VkQueue</type></param></command>
  <command name=\"vkQueueDrain\" alias=\"vkQueueWaitIdle\"/>
  <command><proto><name>vkGetInstanceProcAddr</name></proto></command>
  </commands>
  <feature name=\"VK_VERSION_1_0\" number=\"1.0\" api=\"vulkan\">
  <require>
  <command name=\"vkQueueWaitIdle\"/>
  <command name=\"vkGetInstanceProcAddr\"/>
  </require>
  </feature>
  <extensions>
  <extension name=\"VK_EXT_drain\" supported=\"vulkan\">
  <require>
  <command name=\"vkQueueDrain\"/>
  </require>
  </extension>
  </extensions>
  </registry>"

def orderedRoot : Node :=
  .element "registry" [] (onLines
    [.element "types" []
        (onLines [typeElement "VkDevice" "VkInstance", typeElement "VkQueue" "VkDevice"]),
      .element "commands" [] (onLines queueElements), queueVersionElement,
      .element "extensions" [] (onLines [drainElement])])

def scatteredDocument : String :=
  "<registry>
  <extensions/>
  <commands>
  <command><proto><name>vkGetInstanceProcAddr</name></proto></command>
  <command name=\"vkQueueDrain\" alias=\"vkQueueWaitIdle\"/>
  </commands>
  <extensions>
  <extension name=\"VK_EXT_drain\" supported=\"vulkan\">
  <require>
  <command name=\"vkQueueDrain\"/>
  </require>
  </extension>
  </extensions>
  <types>
  <type name=\"VkQueue\" parent=\"VkDevice\"/>
  </types>
  <feature name=\"VK_VERSION_1_0\" number=\"1.0\" api=\"vulkan\">
  <require>
  <command name=\"vkQueueWaitIdle\"/>
  <command name=\"vkGetInstanceProcAddr\"/>
  </require>
  </feature>
  <commands>
  <command><proto><name>vkQueueWaitIdle</name></proto><param><type>VkQueue</type></param></command>
  </commands>
  <types>
  <type name=\"VkDevice\" parent=\"VkInstance\"/>
  </types>
  </registry>"

def scatteredRoot : Node :=
  .element "registry" [] (onLines
    [.element "extensions" [] [],
      .element "commands" [] (onLines (queueElements.drop 1).reverse),
      .element "extensions" [] (onLines [drainElement]),
      .element "types" [] (onLines [typeElement "VkQueue" "VkDevice"]), queueVersionElement,
      .element "commands" [] (onLines (queueElements.take 1)),
      .element "types" [] (onLines [typeElement "VkDevice" "VkInstance"])])

set_option maxRecDepth 4000 in
theorem document?_orderedDocument : document? orderedDocument = some orderedRoot :=
  (document?_ofList _).trans (by decide +kernel)

set_option maxRecDepth 4000 in
theorem document?_scatteredDocument : document? scatteredDocument = some scatteredRoot :=
  (document?_ofList _).trans (by decide +kernel)

theorem declaredOnce_orderedRoot : DeclaredOnce orderedRoot where
  commands := ⟨_, rfl, by decide⟩
  versions := ⟨_, rfl, by decide⟩
  extensions := ⟨_, rfl, by decide⟩
  header := by decide

theorem sameElements_scatteredRoot : SameElements orderedRoot scatteredRoot where
  types := by decide +kernel
  commands := by decide +kernel
  versions := by decide +kernel
  extensions := by decide +kernel

/-- The second document has the elements of the first one in other sections and another order. -/
theorem readAlike_scatteredDocument : document? orderedDocument = some orderedRoot ∧
    document? scatteredDocument = some scatteredRoot ∧ orderedRoot.hasTag "registry" ∧
    scatteredRoot.hasTag "registry" ∧ DeclaredOnce orderedRoot ∧
    SameElements orderedRoot scatteredRoot ∧
    ReadAlike (read orderedDocument .vulkan) (read scatteredDocument .vulkan) :=
  ⟨document?_orderedDocument, document?_scatteredDocument, rfl, rfl, declaredOnce_orderedRoot,
    sameElements_scatteredRoot,
    (read_reordered _ _ _ _ _ document?_orderedDocument document?_scatteredDocument rfl rfl
      declaredOnce_orderedRoot sameElements_scatteredRoot).1⟩

def queueVersion : Feature where
  name := "VK_VERSION_1_0"
  kind := .apiVersion
  version := ⟨1, 0⟩
  flavors := .ofList ["vulkan"]
  adds := .ofList ["vkQueueWaitIdle", "vkGetInstanceProcAddr"]

def drainExtension : Feature where
  name := "VK_EXT_drain"
  kind := .extension false none
  flavors := .ofList ["vulkan"]
  adds := .ofList ["vkQueueDrain"]

def orderedCommands : List Declaration :=
  [⟨"vkQueueWaitIdle", .canonical (some "VkQueue")⟩, ⟨"vkQueueDrain", .aliasOf "vkQueueWaitIdle"⟩,
    ⟨"vkGetInstanceProcAddr", .canonical none⟩]

theorem declarations_orderedRoot :
    (commandElements orderedRoot).mapM declaration = .ok orderedCommands := rfl

theorem features_orderedRoot :
    (orderedRoot.elements "feature").mapM apiVersion = .ok [queueVersion] ∧
      (extensionElements orderedRoot).mapM extension = .ok [drainExtension] := by
  decide +kernel

def orderedFeatures : FeatureSet := [queueVersion, drainExtension].foldl FeatureSet.insert ∅

def orderedTypes : TypeGraph :=
  .ofList [⟨"VkDevice", .ofList ["VkInstance"]⟩, ⟨"VkQueue", .ofList ["VkDevice"]⟩]

theorem typeGraph_orderedRoot : typeGraph (typeElements orderedRoot) = orderedTypes := by
  decide +kernel

theorem acyclic_orderedTypes : orderedTypes.Acyclic :=
  (TypeGraph.checkAcyclic_eq_ok_iff (typeGraph_orderedRoot ▸ namesParents_typeGraph _)).mp (by cbv)

theorem names_orderedFeatures : orderedFeatures.uses.map (·.name) =
    ["vkGetInstanceProcAddr", "vkQueueWaitIdle", "vkQueueDrain"] := by
  cbv

theorem exists_assemble_orderedRoot : ∃ R, assemble (typeGraph (typeElements orderedRoot))
    orderedCommands orderedFeatures .vulkan = .ok R := by
  refine (exists_assemble_eq_ok_iff (namesParents_typeGraph _)).mpr
    ⟨typeGraph_orderedRoot ▸ acyclic_orderedTypes, ?chains, ?declared⟩
  case chains =>
    simp only [chainResolves_iff, orderedCommands, List.forall_mem_cons]
    exact ⟨⟨_, _, rfl⟩, ⟨_, _, rfl⟩, ⟨_, _, rfl⟩, nofun⟩
  case declared =>
    intro u h
    have hm : u.name ∈ orderedFeatures.uses.map (·.name) :=
      List.mem_map_of_mem (mem_featureSet_uses.mpr h)
    rw [names_orderedFeatures] at hm
    have hs : ["vkGetInstanceProcAddr", "vkQueueWaitIdle", "vkQueueDrain"] ⊆
        orderedCommands.map (·.name) := by decide
    exact List.mem_map.mp (hs hm)

theorem exists_read_orderedDocument : ∃ R, read orderedDocument .vulkan = .ok R := by
  obtain ⟨R, hR⟩ := exists_assemble_orderedRoot
  have hroot := ofRoot_eq_ok_iff.mpr ⟨rfl, orderedCommands, _, _, R, declarations_orderedRoot,
    features_orderedRoot.1, features_orderedRoot.2, hR, rfl⟩
  exact ⟨_, read_eq_ok_iff.mpr ⟨orderedRoot, _, document?_orderedDocument, hroot, rfl⟩⟩

end Registry

end LoadTiers
