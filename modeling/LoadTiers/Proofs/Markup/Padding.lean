import LoadTiers.Proofs.Acceptance
import LoadTiers.Proofs.Markup.Parts
import LoadTiers.Proofs.Markup.Types
import LoadTiers.Proofs.Text.Padding
import LoadTiers.Proofs.Text.Uppercase

/-! # Padded documents

Blanks around the values of attributes. Most of them are not noticed when a registry is read; those
around the names of types are, and so are some around the constants that give revisions.
-/

namespace LoadTiers

namespace Xml

open Text

/-- The nodes are the same but for blanks around the values of attributes. -/
inductive Padded : Node → Node → Prop

  | element (tag : String) {attributes attributes' : List (String × String)}
      {children children' : List Node}
      (ha : List.Forall₂ (fun a a' => a.1 = a'.1 ∧ Pads a.2.toList a'.2.toList)
        attributes attributes')
      (hc : List.Forall₂ Padded children children') :
      Padded (.element tag attributes children) (.element tag attributes' children')

  | text (content : String) : Padded (.text content) (.text content)

  | comment (content : String) : Padded (.comment content) (.comment content)

  | instruction (target content : String) :
      Padded (.instruction target content) (.instruction target content)

mutual

def Node.mapValues (f : String → String) : Node → Node
  | .element tag attributes children =>
    .element tag (attributes.map fun a => (a.1, f a.2)) (mapAllValues f children)
  | .text content => .text content
  | .comment content => .comment content
  | .instruction target content => .instruction target content

def mapAllValues (f : String → String) : List Node → List Node
  | [] => []
  | n :: ns => n.mapValues f :: mapAllValues f ns

end

mutual

theorem padded_mapValues {f : String → String} (hf : ∀ s, Pads s.toList (f s).toList) :
    ∀ n : Node, Padded n (n.mapValues f)
  | .element tag attributes children => by
    refine .element tag ?_ (padded_mapAllValues hf children)
    rw [List.forall₂_map_right_iff]
    exact List.forall₂_same.mpr fun a _ => ⟨rfl, hf a.2⟩
  | .text content => .text content
  | .comment content => .comment content
  | .instruction target content => .instruction target content

theorem padded_mapAllValues {f : String → String} (hf : ∀ s, Pads s.toList (f s).toList) :
    ∀ ns : List Node, List.Forall₂ Padded ns (mapAllValues f ns)
  | [] => .nil
  | n :: ns => .cons (padded_mapValues hf n) (padded_mapAllValues hf ns)

end

namespace Padded

variable {n n' : Node} {tag name : String}

theorem tag?_eq (h : Padded n n') : n'.tag? = n.tag? := by
  cases h <;> rfl

theorem hasTag_eq (h : Padded n n') (tag : String) : n'.hasTag tag = n.hasTag tag := by
  rw [Node.hasTag, Node.hasTag, h.tag?_eq]

theorem content?_eq (h : Padded n n') : n'.content? = n.content? := by
  cases h <;> rfl

theorem children (h : Padded n n') : List.Forall₂ Padded n.children n'.children := by
  cases h with
  | element _ _ hc => exact hc
  | text => exact .nil
  | comment => exact .nil
  | instruction => exact .nil

theorem attribute? (h : Padded n n') (name : String) :
    Option.Rel (fun s t => Pads s.toList t.toList) (n.attribute? name) (n'.attribute? name) := by
  cases h with
  | text => exact .none
  | comment => exact .none
  | instruction => exact .none
  | element tag ha _ =>
    simp only [Node.attribute?]
    induction ha with
    | nil => exact .none
    | cons hr _ ih =>
      rw [List.lookup_cons, List.lookup_cons, hr.1]
      split
      · exact .some hr.2
      · exact ih

theorem elements (h : Padded n n') (tag : String) :
    List.Forall₂ Padded (n.elements tag) (n'.elements tag) :=
  List.rel_filter (fun _ _ h => Eq.to_iff (congrArg (· = true) (h.hasTag_eq tag).symm)) h.children

theorem leadingText?_eq (h : Padded n n') : n'.leadingText? = n.leadingText? :=
  (bind_eq_bind_of_rel (rel_head? h.children) fun _ _ h => h.content?_eq.symm).symm

end Padded

end Xml

namespace Registry

open Text Xml

variable {n n' root root' : Node} {name : String} {f : Feature}

theorem commaList_of_pads {s t : String} (h : Pads s.toList t.toList) :
    commaList t = commaList s := by
  have hs : ∀ u : String, (splitOn ',' u).map trim =
      ((fields ',' u.toList).map (trimBy isBlank)).map String.ofList := by
    intro u
    simp only [splitOn, List.map_map, Function.comp_def, trim, String.toList_ofList]
  rw [commaList, commaList, hs, hs, h.fields_eq (by decide)]

def markedKind (n : Node) : FeatureKind :=
  match (n.attribute? "deprecatedby").or (n.attribute? "obsoletedby") with
  | some successor => .extension true ((some (trim successor)).filter (· ≠ ""))
  | none => .extension false none

theorem required_eq_ok_iff {value : String} :
    required n name = .ok value ↔ filled? n name = some value := by
  unfold required
  cases filled? n name <;> simp

theorem extension_eq_ok_iff : extension n = .ok f ↔ required n "name" = .ok f.name ∧
    revision n f.name = .ok f.version ∧
    (∃ supported, required n "supported" = .ok supported ∧ commaList supported = f.flavors) ∧
    blockCommands n "require" = .ok f.adds ∧ markedKind n = f.kind ∧ f.removes = ∅ := by
  simp only [extension, bind_eq_ok_iff]
  constructor
  · rintro ⟨name, hn, supported, hs, version, hv, adds, ha, h⟩
    cases h
    exact ⟨hn, hv, ⟨supported, hs, rfl⟩, ha, rfl, rfl⟩
  · rintro ⟨hn, hv, ⟨supported, hs, hf⟩, ha, hk, hr⟩
    refine ⟨f.name, hn, supported, hs, f.version, hv, f.adds, ha, ?_⟩
    change Except.ok
      { f with kind := markedKind n, flavors := commaList supported, removes := ∅ } = _
    rw [hk, hf, ← hr]

section Padded

variable (h : Padded n n')
include h

theorem elementsWithin_padded (outer inner : String) :
    List.Forall₂ Padded (elementsWithin n outer inner) (elementsWithin n' outer inner) :=
  List.rel_flatMap (h.elements outer) fun _ _ h => h.elements inner

theorem childText?_padded (tag : String) : childText? n' tag = childText? n tag := by
  refine (bind_eq_bind_of_rel (rel_head? (h.elements tag)) fun _ _ h => ?_).symm
  rw [h.leadingText?_eq]

theorem filled?_padded (name : String) : filled? n' name = filled? n name := by
  have ha := map_eq_map_of_rel (h.attribute? name) fun _ _ h => h.trim_eq.symm
  rw [filled?, filled?, ha]

theorem required_padded (name value : String) :
    required n' name = .ok value ↔ required n name = .ok value := by
  rw [required_eq_ok_iff, required_eq_ok_iff, filled?_padded h]

theorem typeParents_padded : typeParents n' = typeParents n := by
  have hl : (n'.attribute? "parent").elim ∅ commaList =
      (n.attribute? "parent").elim ∅ commaList := by
    rcases cases_of_rel (h.attribute? "parent") with ⟨hn, hn'⟩ | ⟨s, t, hs, ht, hst⟩
    · rw [hn, hn']
    · rw [hs, ht]
      exact commaList_of_pads hst
  rw [typeParents, typeParents, hl, filled?_padded h]

/-- The number stands after the name, and neither of them is in an attribute. -/
theorem headerNumber?_padded : headerNumber? n' = headerNumber? n := by
  have hf : List.Forall₂ Padded (fromFirst n "name") (fromFirst n' "name") :=
    forall₂_dropWhile h.children fun _ _ h => by rw [h.hasTag_eq]
  unfold headerNumber?
  generalize fromFirst n "name" = ns, fromFirst n' "name" = ns' at hf ⊢
  cases hf with
  | nil => rfl
  | cons hn hf =>
    cases hf with
    | nil => rfl
    | cons ha _ => simp only [hn.leadingText?_eq, ha.content?_eq]

theorem declaration_padded (d : Declaration) :
    declaration n' = .ok d ↔ declaration n = .ok d := by
  have ho := bind_eq_bind_of_rel (rel_head? (h.elements "param")) fun _ _ h =>
    (childText?_padded h "type").symm
  have hp := rel_head? (h.elements "proto")
  unfold declaration
  rcases cases_of_rel (h.attribute? "alias") with ⟨hn, hn'⟩ | ⟨s, t, hs, ht, -⟩
  · simp only [hn, hn', ← ho, Option.isSome_none, Bool.false_eq_true, if_false]
    generalize (n.elements "proto").head? = proto, (n'.elements "proto").head? = proto' at hp ⊢
    cases hp with
    | none => rfl
    | some hn => simp only [childText?_padded hn]
  · simp only [hs, ht, Option.isSome_some, if_true, bind_eq_ok_iff, required_padded h]

theorem blockCommands_padded (block : String) (names : NameSet) :
    blockCommands n' block = .ok names ↔ blockCommands n block = .ok names := by
  have hm : ∀ ns, (elementsWithin n' block "command").mapM (required · "name") = .ok ns ↔
      (elementsWithin n block "command").mapM (required · "name") = .ok ns :=
    fun ns => mapM_eq_ok_congr (elementsWithin_padded h block "command")
      fun _ _ name h => required_padded h "name" name
  simp only [blockCommands, bind_eq_ok_iff]
  exact exists_congr fun ns => and_congr_left' (hm ns)

theorem apiVersion_padded (f : Feature) : apiVersion n' = .ok f ↔ apiVersion n = .ok f := by
  simp only [apiVersion, bind_eq_ok_iff, required_padded h, blockCommands_padded h]

theorem markedKind_padded : markedKind n' = markedKind n := by
  have hm := rel_or (h.attribute? "deprecatedby") (h.attribute? "obsoletedby")
  unfold markedKind
  rcases cases_of_rel hm with ⟨hn, hn'⟩ | ⟨s, t, hs, ht, hst⟩
  · rw [hn, hn']
  · rw [hs, ht]
    simp only [hst.trim_eq]

end Padded

/-- The constant that gives the revision of an extension keeps its name, and gets no blanks next to
quotes. -/
structure SparesConstant (constant : String) (n n' : Node) : Prop where
  name : n.attribute? "name" = some constant → n'.attribute? "name" = some constant
  value : n.attribute? "name" = some constant →
    Option.Rel (fun s t => PadsUnquoted s.toList t.toList)
      (n.attribute? "value") (n'.attribute? "value")

def SparesRevision (n n' : Node) : Prop :=
  ∀ name, filled? n "name" = some name →
    List.Forall₂ (SparesConstant (uppercase name ++ "_SPEC_VERSION"))
      (elementsWithin n "require" "enum") (elementsWithin n' "require" "enum")

/-- There are no blanks added to the names of types and to what gives revisions. -/
structure Spares (root root' : Node) : Prop where
  typeNames : (typeElements root').map (·.attribute? "name") =
    (typeElements root).map (·.attribute? "name")
  revisions : List.Forall₂ SparesRevision (extensionElements root) (extensionElements root')

/-- Neither end of the constant is blank, so that no other text is padded to it. -/
theorem eq_constant_of_pads {s : String} (hn : filled? n "name" = some name)
    (h : Pads s.toList (uppercase name ++ "_SPEC_VERSION").toList) :
    s = uppercase name ++ "_SPEC_VERSION" := by
  obtain ⟨raw, -, rfl, hne⟩ := filled?_eq_some_iff.mp hn
  have ht : trimBy isBlank raw.toList ≠ [] := fun ht => hne (congrArg String.ofList ht)
  have hh : (uppercase (trim raw)).toList.head?.map isBlank = some false := by
    apply head?_uppercase
    rw [trim, String.toList_ofList]
    exact head?_trimBy ht
  obtain ⟨c, hc, hb⟩ := Option.map_eq_some_iff.mp hh
  apply String.toList_injective
  apply h.eq_of_ends
  · rw [String.toList_append, List.head?_append, hc]
    exact congrArg some hb
  · rw [String.toList_append, List.getLast?_append]
    rfl

theorem attribute?_eq_constant_iff {constant : String} (h : Padded n n')
    (hc : ∀ s : String, Pads s.toList constant.toList → s = constant)
    (hs : SparesConstant constant n n') :
    n'.attribute? "name" = some constant ↔ n.attribute? "name" = some constant := by
  refine ⟨fun hn' => ?_, hs.name⟩
  rcases cases_of_rel (h.attribute? "name") with ⟨-, ht⟩ | ⟨s, t, hst, ht, hp⟩
  · rw [ht] at hn'
    cases hn'
  · rw [ht, Option.some.injEq] at hn'
    subst hn'
    rw [hst, hc s hp]

theorem parse_of_padsUnquoted {s t : String} (h : PadsUnquoted s.toList t.toList) (v : Version) :
    Version.parse (.ofList (trimBy (· == '"') t.toList)) = .ok v ↔
      Version.parse (.ofList (trimBy (· == '"') s.toList)) = .ok v := by
  have ho : Version.ofText? (.ofList (trimBy (· == '"') t.toList)) =
      Version.ofText? (.ofList (trimBy (· == '"') s.toList)) := by
    apply Pads.ofText?_eq
    rw [String.toList_ofList, String.toList_ofList]
    exact h.pads_trimBy
  unfold Version.parse
  rw [ho]
  cases Version.ofText? (.ofList (trimBy (· == '"') s.toList)) <;> simp

def constant? (n : Node) (constant : String) : Option Node :=
  (elementsWithin n "require" "enum").find? fun e => e.attribute? "name" == some constant

theorem revision_eq (n : Node) (name : String) : revision n name =
    match (constant? n (uppercase name ++ "_SPEC_VERSION")).bind (·.attribute? "value") with
    | some raw => Version.parse (.ofList (trimBy (· == '"') raw.toList))
    | none => .ok {} := rfl

theorem constant?_spared {constant : String} (h : Padded n n')
    (hc : ∀ s : String, Pads s.toList constant.toList → s = constant)
    (hs : List.Forall₂ (SparesConstant constant) (elementsWithin n "require" "enum")
      (elementsWithin n' "require" "enum")) :
    Option.Rel (fun s t => PadsUnquoted s.toList t.toList)
      ((constant? n constant).bind (·.attribute? "value"))
      ((constant? n' constant).bind (·.attribute? "value")) := by
  have he := forall₂_and (elementsWithin_padded h "require" "enum") hs
  have hf := rel_find? (p := (·.attribute? "name" == some constant))
    (q := (·.attribute? "name" == some constant)) he ?same
  case same =>
    intro e e' h
    rw [Bool.eq_iff_iff, beq_iff_eq, beq_iff_eq, attribute?_eq_constant_iff h.1 hc h.2]
  rcases cases_of_rel hf with ⟨hn, hn'⟩ | ⟨e, e', hn, hn', -, hs⟩
  · rw [constant?, constant?, hn, hn']
    exact .none
  · rw [constant?, constant?, hn, hn']
    exact hs.value (by simpa using List.find?_some hn)

theorem revision_spared (h : Padded n n') (hs : SparesRevision n n')
    (hn : filled? n "name" = some name) (v : Version) :
    revision n' name = .ok v ↔ revision n name = .ok v := by
  rw [revision_eq, revision_eq]
  rcases cases_of_rel (constant?_spared h (fun _ => eq_constant_of_pads hn) (hs name hn)) with
    ⟨hn, hn'⟩ | ⟨s, t, hn, hn', hst⟩
  · rw [hn, hn']
  · rw [hn, hn']
    exact parse_of_padsUnquoted hst v

theorem extension_spared (h : Padded n n') (hs : SparesRevision n n') (f : Feature) :
    extension n' = .ok f ↔ extension n = .ok f := by
  rw [extension_eq_ok_iff, extension_eq_ok_iff]
  simp only [required_padded h, blockCommands_padded h, markedKind_padded h]
  refine and_congr_right fun hn => and_congr_left' ?_
  exact revision_spared h hs (required_eq_ok_iff.mp hn) f.version

section Root

variable (h : Padded root root')
include h

theorem declarations_padded (ds : List Declaration) :
    (commandElements root').mapM declaration = .ok ds ↔
      (commandElements root).mapM declaration = .ok ds :=
  mapM_eq_ok_congr (elementsWithin_padded h "commands" "command") fun _ _ d h =>
    declaration_padded h d

theorem apiVersions_padded (versions : List Feature) :
    (root'.elements "feature").mapM apiVersion = .ok versions ↔
      (root.elements "feature").mapM apiVersion = .ok versions :=
  mapM_eq_ok_congr (h.elements "feature") fun _ _ f h => apiVersion_padded h f

theorem headerNumbers_padded : (typeElements root').filterMap headerNumber? =
    (typeElements root).filterMap headerNumber? := by
  refine (filterMap_eq_filterMap_of_forall₂ (elementsWithin_padded h "types" "type") ?_).symm
  intro n n' h
  exact (headerNumber?_padded h).symm

theorem typeGraph_padded (hs : (typeElements root').map (·.attribute? "name") =
      (typeElements root).map (·.attribute? "name")) :
    typeGraph (typeElements root') = typeGraph (typeElements root) := by
  have hn : List.Forall₂ (fun n n' : Node => n.attribute? "name" = n'.attribute? "name")
      (typeElements root) (typeElements root') := by
    rw [← List.forall₂_eq_eq_eq, List.forall₂_map_left_iff, List.forall₂_map_right_iff] at hs
    exact List.Forall₂.flip (hs.imp fun _ _ => Eq.symm)
  have ht := forall₂_and (elementsWithin_padded h "types" "type") hn
  refine (foldl_eq_foldl_of_forall₂ ht ?_ ∅).symm
  rintro g n n' ⟨h, hn⟩
  rw [typeName?, typeName?, hn, childText?_padded h, typeParents_padded h]

theorem ofRoot_spared (hs : Spares root root') (policy : TierPolicy) (R : Registry) :
    ofRoot root' policy = .ok R ↔ ofRoot root policy = .ok R := by
  have hx : ∀ xs, (extensionElements root').mapM extension = .ok xs ↔
      (extensionElements root).mapM extension = .ok xs := fun xs =>
    mapM_eq_ok_congr (forall₂_and (elementsWithin_padded h "extensions" "extension") hs.revisions)
      fun _ _ f h => extension_spared h.1 h.2 f
  rw [ofRoot_eq_ok_iff, ofRoot_eq_ok_iff]
  simp only [h.hasTag_eq, declarations_padded h, apiVersions_padded h, hx,
    typeGraph_padded h hs.typeNames, headerNumbers_padded h]

end Root

end Registry

end LoadTiers
