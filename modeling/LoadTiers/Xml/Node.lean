/-! # XML trees

The nodes of a document, how to look into them, and when two of them are the same.
-/

namespace LoadTiers.Xml

/-- A node of a document. Elements have their names and attributes without namespaces; attributes
that are in a namespace are left out. -/
inductive Node
  | element (tag : String) (attributes : List (String × String)) (children : List Node)
  | text (content : String)
  | comment (content : String)
  | instruction (target content : String)
  deriving Inhabited

namespace Node

def tag? : Node → Option String
  | element tag _ _ => some tag
  | _ => none

def children : Node → List Node
  | element _ _ children => children
  | _ => []

def attribute? (n : Node) (name : String) : Option String :=
  match n with
  | element _ attributes _ => attributes.lookup name
  | _ => none

def hasTag (tag : String) (n : Node) : Bool := n.tag? == some tag

/-- The elements of a name directly inside. -/
def elements (n : Node) (tag : String) : List Node := n.children.filter (·.hasTag tag)

def content? : Node → Option String
  | text content => some content
  | _ => none

/-- The text that an element starts with. -/
def leadingText? (n : Node) : Option String := n.children.head?.bind content?

mutual

def same : Node → Node → Bool
  | element tag attributes children, element tag' attributes' children' =>
    tag == tag' && attributes == attributes' && sameAll children children'
  | text content, text content' => content == content'
  | comment content, comment content' => content == content'
  | instruction target content, instruction target' content' =>
    target == target' && content == content'
  | _, _ => false

def sameAll : List Node → List Node → Bool
  | [], [] => true
  | m :: ms, n :: ns => same m n && sameAll ms ns
  | _, _ => false

end

mutual

theorem same_iff : ∀ m n : Node, m.same n ↔ m = n
  | element tag attributes children, n => by
    cases n <;> simp [same, sameAll_iff children, and_assoc]
  | text content, n => by cases n <;> simp [same]
  | comment content, n => by cases n <;> simp [same]
  | instruction target content, n => by cases n <;> simp [same]

theorem sameAll_iff : ∀ ms ns : List Node, sameAll ms ns ↔ ms = ns
  | [], ns => by cases ns <;> simp [sameAll]
  | m :: ms, ns => by cases ns <;> simp [sameAll, same_iff m, sameAll_iff ms]

end

instance : DecidableEq Node := fun m n => decidable_of_iff (m.same n) (same_iff m n)

end Node

end LoadTiers.Xml
