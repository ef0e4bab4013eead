import LoadTiers.Xml.Node
import LoadTiers.Xml.Token

/-! # Documents

From tokens to the tree of a document. Tags have to match, the qualifiers of names have to be bound
to namespaces, and there has to be one root element.
-/

namespace LoadTiers.Xml

/-- Qualifiers with their namespaces, the innermost first. The default namespace has none. -/
abbrev Scope := List (Option String × String)

def xmlNamespace : String := "http:" ++ "//www.w3.org/XML/1998/namespace"

def xmlnsNamespace : String := "http:" ++ "//www.w3.org/2000/xmlns/"

def RawAttribute.isBinding (a : RawAttribute) : Bool :=
  a.name.qualifier == "xmlns" || a.name.name == "xmlns"

/-- Adds the namespace that an attribute binds. A qualifier is bound once in a tag, and the
namespaces of `xml` and `xmlns` are not bound to other qualifiers. -/
def bind? (own : Scope) (a : RawAttribute) : Option Scope :=
  if !a.isBinding then some own
  else if a.value = xmlnsNamespace then none
  else if a.name.qualifier = "xmlns" then do
    guard (a.name.name = "xml" ↔ a.value = xmlNamespace)
    guard (own.lookup (some a.name.name)).isNone
    return if a.value = xmlNamespace then own else own ++ [(some a.name.name, a.value)]
  else do
    guard (a.value ≠ xmlNamespace)
    return own ++ [(none, a.value)]

/-- The namespace of an attribute, which is none if it has no qualifier. -/
def attributeNamespace? (scope : Scope) (name : QName) : Option (Option String) :=
  if name.qualifier = "" then some none
  else if name.qualifier = "xml" then some (some xmlNamespace)
  else (scope.lookup (some name.qualifier)).map some

/-- Adds an attribute with its namespace. No two may have the same namespace and name. -/
def resolve? (scope : Scope) (done : List ((Option String × String) × String))
    (a : RawAttribute) : Option (List ((Option String × String) × String)) := do
  if a.isBinding then return done
  let key := (← attributeNamespace? scope a.name, a.name.name)
  guard (done.lookup key).isNone
  return done ++ [(key, a.value)]

/-- An element that is open, with what is inside of it so far, the last node first. -/
structure Frame where
  name : QName
  attributes : List (String × String)
  scope : Scope
  inside : List Node

def Frame.close (f : Frame) : Node := .element f.name.name f.attributes f.inside.reverse

def Frame.open? (outer : Scope) (name : QName) (attributes : List RawAttribute) :
    Option Frame := do
  let own ← attributes.foldlM bind? []
  let scope := own ++ outer
  let resolved ← attributes.foldlM (resolve? scope) []
  guard (name.qualifier = "" ∨
    (name.qualifier ≠ "xmlns" ∧ (scope.lookup (some name.qualifier)).isSome))
  let plain := resolved.filterMap fun ((space, name), value) =>
    if space = none then some (name, value) else none
  return ⟨name, plain, scope, []⟩

/-- Puts a node behind others. Texts that meet become one. -/
def addNode (inside : List Node) (n : Node) : List Node :=
  match inside, n with
  | .text s :: ns, .text t => .text (s ++ t) :: ns
  | ns, n => n :: ns

structure Partial where
  root : Option Node := none
  opened : List Frame := []

namespace Partial

/-- Puts a node into the innermost open element. Outside of the root, text is not allowed. -/
def add? (d : Partial) (n : Node) : Option Partial :=
  match d.opened, n with
  | f :: fs, n => some { d with opened := { f with inside := addNode f.inside n } :: fs }
  | [], .element tag attributes children =>
    if d.root.isNone then some { d with root := some (.element tag attributes children) } else none
  | [], .text _ => none
  | [], _ => some d

def step? (d : Partial) : Token → Option Partial
  | .startTag name attributes closed => do
    guard (d.opened ≠ [] ∨ d.root.isNone)
    let frame ← Frame.open? (d.opened.head?.elim [] (·.scope)) name attributes
    if closed then d.add? frame.close else return { d with opened := frame :: d.opened }
  | .endTag name =>
    match d.opened with
    | f :: fs => if f.name = name then { d with opened := fs }.add? f.close else none
    | [] => none
  | .text pieces =>
    if d.opened.isEmpty then
      if pieces.all fun | .raw c => isSpace c | .reference _ => false then some d else none
    else d.add? (.text (.ofList (lineBreaks false pieces)))
  | .cdata content => d.add? (.text content)
  | .comment content => d.add? (.comment content)
  | .instruction target content => d.add? (.instruction target content)

def root? (d : Partial) : Option Node := if d.opened.isEmpty then d.root else none

end Partial

/-- The root element of a document, if the text is well-formed. -/
def document? (text : String) : Option Node := do
  let tokens ← tokens? text.toList
  (← tokens.foldlM Partial.step? {}).root?

end LoadTiers.Xml
