import LoadTiers.Proofs.Markup.Order
import LoadTiers.Proofs.Related

/-! # What is not read

Each place of a document is looked through for elements of certain names, directly inside of it.
Nodes of any other kind can stand there, and have no effect on the registry that is read or on the
error that it is refused with.
-/

namespace LoadTiers.Registry

open Xml

/-- The places that are looked through for elements. The blocks of an API version name what it adds
and removes, and those of an extension what it adds. -/
inductive Place
  | registry
  | types
  | commands
  | feature
  | versionBlock
  | extensions
  | extension
  | extensionBlock
  deriving DecidableEq

namespace Place

/-- The names of the elements that are read in a place. Some of these elements are places in turn.
What an extension removes is not read. -/
def reads : Place → List (String × Option Place)
  | registry =>
    [("types", some types), ("commands", some commands), ("feature", some feature),
      ("extensions", some extensions)]
  | types => [("type", none)]
  | commands => [("command", none)]
  | feature => [("require", some versionBlock), ("remove", some versionBlock)]
  | versionBlock => [("command", none)]
  | extensions => [("extension", some extension)]
  | extension => [("require", some extensionBlock)]
  | extensionBlock => [("command", none), ("enum", none)]

def Unread (p : Place) (n : Node) : Prop := ∀ tag ∈ n.tag?, p.reads.lookup tag = none

instance (p : Place) (n : Node) : Decidable (p.Unread n) :=
  inferInstanceAs (Decidable (∀ tag ∈ n.tag?, p.reads.lookup tag = none))

end Place

/-- The nodes at a place are the same but for those that are not read there. As texts that meet are
one, an unread node may be gone as well as new. -/
inductive SameRead : Place → List Node → List Node → Prop

  | nil {p : Place} : SameRead p [] []

  | insert {p : Place} {n : Node} {ns ns' : List Node} (hn : p.Unread n)
      (h : SameRead p ns ns') : SameRead p ns (n :: ns')

  | drop {p : Place} {n : Node} {ns ns' : List Node} (hn : p.Unread n)
      (h : SameRead p ns ns') : SameRead p (n :: ns) ns'

  | keep {p : Place} (n : Node) {ns ns' : List Node} (h : SameRead p ns ns') :
      SameRead p (n :: ns) (n :: ns')

  | within {p q : Place} {tag : String} (attributes : List (String × String))
      {children children' ns ns' : List Node} (hq : p.reads.lookup tag = some (some q))
      (hc : SameRead q children children') (h : SameRead p ns ns') :
      SameRead p (.element tag attributes children :: ns) (.element tag attributes children' :: ns')

variable {p q : Place} {n n' root root' : Node} {ns ns' notes : List Node} {tag : String}
  {r : Option Place} {policy : TierPolicy}

theorem SameRead.refl (p : Place) (ns : List Node) : SameRead p ns ns := by
  induction ns with
  | nil => exact .nil
  | cons n ns ih => exact .keep n ih

theorem SameRead.insertAll (hn : ∀ n ∈ notes, p.Unread n) (h : SameRead p ns ns') :
    SameRead p ns (notes ++ ns') := by
  induction notes with
  | nil => exact h
  | cons n notes ih =>
    rw [List.forall_mem_cons] at hn
    exact .insert hn.1 (ih hn.2)

/-- The elements say the same of themselves, and the same is read in them. -/
structure SameIn (p : Place) (n n' : Node) : Prop where
  tag? : n'.tag? = n.tag?
  attribute? : ∀ name, n'.attribute? name = n.attribute? name
  children : SameRead p n.children n'.children

/-- The elements are the same, up to what is not read if they are places. -/
def Alike (r : Option Place) (n n' : Node) : Prop := r.elim (n = n') (SameIn · n n')

theorem Alike.refl (r : Option Place) (n : Node) : Alike r n n := by
  cases r with
  | none => rfl
  | some p => exact ⟨rfl, fun _ => rfl, .refl p _⟩

theorem Place.Unread.hasTag_eq_false (hn : p.Unread n) (hr : p.reads.lookup tag = some r) :
    n.hasTag tag = false := by
  rw [Node.hasTag, beq_eq_false_iff_ne]
  intro ht
  rw [hn tag ht] at hr
  cases hr

theorem SameRead.filter (h : SameRead p ns ns') (hr : p.reads.lookup tag = some r) :
    List.Forall₂ (Alike r) (ns.filter (·.hasTag tag)) (ns'.filter (·.hasTag tag)) := by
  induction h with
  | nil => exact .nil
  | insert hn _ ih => simpa [hn.hasTag_eq_false hr] using ih hr
  | drop hn _ ih => simpa [hn.hasTag_eq_false hr] using ih hr
  | keep n _ ih =>
    rw [List.filter_cons, List.filter_cons]
    split
    · exact .cons (.refl r n) (ih hr)
    · exact ih hr
  | @within p q tag' attributes children children' _ _ hq hc _ _ ih =>
    by_cases ht : tag' = tag
    · subst ht
      obtain rfl : some q = r := Option.some.inj (hq.symm.trans hr)
      have ha : Alike (some q) (.element tag' attributes children)
        (.element tag' attributes children') := ⟨rfl, fun _ => rfl, hc⟩
      simpa [Node.hasTag, Node.tag?] using ⟨ha, ih hr⟩
    · simpa [Node.hasTag, Node.tag?, ht] using ih hr

namespace SameIn

theorem elements_alike (h : SameIn p n n') (tag : String) (hr : p.reads.lookup tag = some r) :
    List.Forall₂ (Alike r) (n.elements tag) (n'.elements tag) := h.children.filter hr

theorem elementsWithin_alike (h : SameIn p n n') (outer inner : String)
    (hq : p.reads.lookup outer = some (some q)) (hr : q.reads.lookup inner = some r) :
    List.Forall₂ (Alike r) (elementsWithin n outer inner) (elementsWithin n' outer inner) :=
  List.rel_flatMap (h.elements_alike outer hq) fun _ _ h => h.elements_alike inner hr

theorem elementsWithin_eq (h : SameIn p n n') (outer inner : String)
    (hq : p.reads.lookup outer = some (some q)) (hr : q.reads.lookup inner = some none) :
    elementsWithin n' outer inner = elementsWithin n outer inner := by
  have he : List.Forall₂ Eq (elementsWithin n outer inner) (elementsWithin n' outer inner) :=
    h.elementsWithin_alike outer inner hq hr
  rw [List.forall₂_eq_eq_eq] at he
  exact he.symm

theorem required_eq (h : SameIn p n n') (name : String) : required n' name = required n name := by
  rw [required, required, filled?, filled?, elementText, elementText]
  simp only [h.tag?, h.attribute?]

theorem blockCommands_eq (h : SameIn p n n') (block : String)
    (hq : p.reads.lookup block = some (some q)) (hr : q.reads.lookup "command" = some none) :
    blockCommands n' block = blockCommands n block := by
  have hc := h.elementsWithin_eq block "command" hq hr
  unfold elementsWithin at hc
  rw [blockCommands, blockCommands, hc]

theorem apiVersion_eq (h : SameIn .feature n n') : apiVersion n' = apiVersion n := by
  have ha := h.blockCommands_eq "require" rfl rfl
  have hr := h.blockCommands_eq "remove" rfl rfl
  simp only [apiVersion, h.required_eq, ha, hr]

theorem revision_eq (h : SameIn .extension n n') (name : String) :
    revision n' name = revision n name := by
  have he := h.elementsWithin_eq "require" "enum" rfl rfl
  unfold elementsWithin at he
  rw [revision, revision, he]

theorem extension_eq (h : SameIn .extension n n') : extension n' = extension n := by
  have ha := h.blockCommands_eq "require" rfl rfl
  simp only [extension, h.required_eq, h.revision_eq, h.attribute?, ha]

end SameIn

/-- Nothing that is read from a root element has changed, be it well or badly written. -/
theorem ofRoot_sameIn (h : SameIn .registry root root') (policy : TierPolicy) :
    ofRoot root' policy = ofRoot root policy := by
  have ht := h.elementsWithin_eq "types" "type" rfl rfl
  have hc := h.elementsWithin_eq "commands" "command" rfl rfl
  have hfeatures : List.Forall₂ (SameIn .feature) (root.elements "feature")
      (root'.elements "feature") := h.elements_alike (r := some .feature) "feature" rfl
  have hextensions : List.Forall₂ (SameIn .extension) (extensionElements root)
      (extensionElements root') :=
    h.elementsWithin_alike (r := some .extension) "extensions" "extension" rfl rfl
  have hv := mapM_eq_mapM_of_forall₂ hfeatures fun _ _ h => h.apiVersion_eq.symm
  have hx := mapM_eq_mapM_of_forall₂ hextensions fun _ _ h => h.extension_eq.symm
  unfold extensionElements at hx
  unfold elementsWithin at ht hc hx
  simp only [ofRoot, Node.hasTag, h.tag?, ht, hc, hv, hx]

/-- Documents that differ in nothing but what is not read are read alike: they give the same
registry but for the digest, or are refused with the same error. -/
theorem read_sameIn (text text' : String) (root root' : Node) (policy : TierPolicy)
    (ht : document? text = some root) (ht' : document? text' = some root')
    (h : SameIn .registry root root') : ReadAlike (read text policy) (read text' policy) := by
  unfold read
  simp only [ht, ht', ofRoot_sameIn h]
  cases ofRoot root policy with
  | error e => exact .refused e
  | ok R => exact .registry { R with sourceDigest := _ } _

section Annotated

variable (notes : Place → List Node)

mutual

/-- The node with notes in front of what is inside of it, wherever it is a place or holds one. -/
def annotated : Option Place → Node → Node
  | some p, .element tag attributes children =>
    .element tag attributes (notes p ++ annotatedAll p children)
  | _, n => n

def annotatedAll (p : Place) : List Node → List Node
  | [] => []
  | n :: ns => annotated (n.tag?.bind fun tag => (p.reads.lookup tag).join) n :: annotatedAll p ns

end

variable {notes} (hn : ∀ p, ∀ n ∈ notes p, p.Unread n)
include hn

theorem sameRead_annotatedAll : ∀ (p : Place) (ns : List Node),
    SameRead p ns (annotatedAll notes p ns)
  | p, [] => .nil
  | p, .text content :: ns => .keep _ (sameRead_annotatedAll p ns)
  | p, .comment content :: ns => .keep _ (sameRead_annotatedAll p ns)
  | p, .instruction target content :: ns => .keep _ (sameRead_annotatedAll p ns)
  | p, .element tag attributes children :: ns => by
    have hs := sameRead_annotatedAll p ns
    rw [annotatedAll, Node.tag?, Option.bind_some]
    match hr : p.reads.lookup tag with
    | none => exact .keep _ hs
    | some none => exact .keep _ hs
    | some (some q) =>
      exact .within attributes hr (.insertAll (hn q) (sameRead_annotatedAll q children)) hs

theorem sameIn_annotated (p : Place) (n : Node) : SameIn p n (annotated notes (some p) n) := by
  cases n with
  | element tag attributes children =>
    exact ⟨rfl, fun _ => rfl, .insertAll (hn p) (sameRead_annotatedAll hn p children)⟩
  | text content => exact Alike.refl (some p) _
  | comment content => exact Alike.refl (some p) _
  | instruction target content => exact Alike.refl (some p) _

end Annotated

/-- An element, a text and a comment that are not read. The element looks like a block of removals
in an extension, and holds a bad command anywhere else. -/
def queueNotes (p : Place) : List Node :=
  [if p = .extension then
      .element "remove" [] [.element "command" [("name", "vkQueueDrain")] []]
    else .element "note" [] [.element "command" [] []],
    .text "unread", .comment "unread"]

theorem unread_queueNotes (p : Place) : ∀ n ∈ queueNotes p, p.Unread n := by
  cases p <;> decide

def annotatedDocument : String :=
  "<registry><note><command/></note>unread<!--unread-->
  <types><note><command/></note>unread<!--unread-->
  <type name=\"VkDevice\" parent=\"VkInstance\"/>
  <type name=\"VkQueue\" parent=\"VkDevice\"/>
  </types>
  <commands><note><command/></note>unread<!--unread-->
  <command><proto><name>vkQueueWaitIdle</name></proto><param><type>VkQueue</type></param></command>
  <command name=\"vkQueueDrain\" alias=\"vkQueueWaitIdle\"/>
  <command><proto><name>vkGetInstanceProcAddr</name></proto></command>
  </commands>
  <feature name=\"VK_VERSION_1_0\" number=\"1.0\" api=\"vulkan\"
  ><note><command/></note>unread<!--unread-->
  <require><note><command/></note>unread<!--unread-->
  <command name=\"vkQueueWaitIdle\"/>
  <command name=\"vkGetInstanceProcAddr\"/>
  </require>
  </feature>
  <extensions><note><command/></note>unread<!--unread-->
  <extension name=\"VK_EXT_drain\" supported=\"vulkan\"
  ><remove><command name=\"vkQueueDrain\"/></remove>unread<!--unread-->
  <require><note><command/></note>unread<!--unread-->
  <command name=\"vkQueueDrain\"/>
  </require>
  </extension>
  </extensions>
  </registry>"

set_option maxRecDepth 6000 in
theorem document?_annotatedDocument :
    document? annotatedDocument = some (annotated queueNotes (some .registry) orderedRoot) :=
  (document?_ofList _).trans (by decide +kernel)

/-- The notes change nothing but the digest. -/
theorem readAlike_annotatedDocument : document? orderedDocument = some orderedRoot ∧
    document? annotatedDocument = some (annotated queueNotes (some .registry) orderedRoot) ∧
    SameIn .registry orderedRoot (annotated queueNotes (some .registry) orderedRoot) ∧
    ∃ R, read orderedDocument .vulkan = .ok R ∧
      ReadAlike (.ok R) (read annotatedDocument .vulkan) := by
  have hs := sameIn_annotated unread_queueNotes .registry orderedRoot
  have ha := read_sameIn _ _ _ _ .vulkan document?_orderedDocument document?_annotatedDocument hs
  obtain ⟨R, hR⟩ := exists_read_orderedDocument
  rw [hR] at ha
  exact ⟨document?_orderedDocument, document?_annotatedDocument, hs, R, hR, ha⟩

end LoadTiers.Registry
