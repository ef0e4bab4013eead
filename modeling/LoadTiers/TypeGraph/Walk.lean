import LoadTiers.TypeGraph
import LoadTiers.Error

/-! # Walks to the ancestors of a type

A depth-first walk that looks for a base among the ancestors of a type. It keeps the types on the
path from where it started, and those that it has finished. It stops at a type that is on its own
path.
-/

namespace LoadTiers

namespace TypeGraph

inductive Outcome
  /-- The base is a parent of the last type on the path. -/
  | found (finished : NameSet) (path : List String)
  /-- All ancestors were seen, and none of them is the base. -/
  | exhausted (finished : NameSet)
  /-- The type is on its own path. -/
  | cycle (type : String)
  deriving DecidableEq

variable {g : TypeGraph}

def offPath (g : TypeGraph) (path : List String) : Nat :=
  (g.names.filter fun n => n ∉ path).length

theorem offPath_cons_lt {a : String} {path : List String} (ha : a ∈ g.names) (hp : a ∉ path) :
    offPath g (a :: path) < offPath g path := by
  have h : g.names.filter (fun n => n ∉ a :: path) =
      (g.names.filter fun n => n ∉ path).filter fun n => n ≠ a := by
    rw [List.filter_filter]
    exact List.filter_congr fun n _ => by simp
  rw [offPath, offPath, h, List.length_filter_lt_length_iff_exists]
  exact ⟨a, by simp [ha, hp], by simp⟩

mutual

/-- Walks from the type `a` while the types of `path` are on the path. -/
def visit (g : TypeGraph) (base : String) (path : List String) (finished : NameSet) (a : String) :
    Outcome :=
  if a ∈ finished then .exhausted finished
  else if _ : a ∈ path then .cycle a
  else if _ : a ∈ g.names then
    match visitAll g base (a :: path) finished (g.parents a).toList with
    | .exhausted finished => .exhausted (finished.insert a)
    | outcome => outcome
  else .exhausted (finished.insert a)
termination_by (offPath g path, 0)
decreasing_by exact Prod.Lex.left _ _ (offPath_cons_lt ‹_› ‹_›)

/-- Walks from each of the parents `ps` of the last type on the path, up to the first that ends
the walk. -/
def visitAll (g : TypeGraph) (base : String) (path : List String) (finished : NameSet) :
    List String → Outcome
  | [] => .exhausted finished
  | p :: ps =>
    if p = base then .found finished path
    else match visit g base path finished p with
      | .exhausted finished => visitAll g base path finished ps
      | outcome => outcome
termination_by ps => (offPath g path, ps.length + 1)
decreasing_by
  · exact Prod.Lex.right _ (by simp)
  · exact Prod.Lex.right _ (by simp)

end

/-- Whether the base is the type itself or one of its ancestors. -/
def isDescendant (g : TypeGraph) (a base : String) : Except RegistryError Bool :=
  if a = base then .ok true
  else match visit g base [] ∅ a with
    | .found .. => .ok true
    | .exhausted _ => .ok false
    | .cycle t => .error (.cyclicTypeGraph t)

/-- Walks from each type in turn with one state; the empty name is the base. A walk that finds it
leaves its path behind. -/
def checkAll (g : TypeGraph) (path : List String) (finished : NameSet) :
    List String → Except RegistryError Unit
  | [] => .ok ()
  | a :: as =>
    match visit g "" path finished a with
    | .found finished path => checkAll g path finished as
    | .exhausted finished => checkAll g path finished as
    | .cycle t => .error (.cyclicTypeGraph t)

def checkAcyclic (g : TypeGraph) : Except RegistryError Unit := checkAll g [] ∅ g.names

end TypeGraph

end LoadTiers
