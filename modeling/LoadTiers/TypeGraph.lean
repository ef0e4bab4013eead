import LoadTiers.Roster

/-! # Type graphs

Handle types and the parents that they list. A parent need not be declared itself, and then it has
no parents.
-/

namespace LoadTiers

structure TypeNode where
  name : String
  parents : NameSet
  deriving DecidableEq

abbrev TypeGraph := Roster TypeNode.name

namespace TypeGraph

variable {g : TypeGraph} {a b c : String}

def parents (g : TypeGraph) (a : String) : NameSet :=
  match g.get? a with
  | some node => node.parents
  | none => ∅

/-- Declares a type; parents add up over the declarations of one name. -/
def declare (g : TypeGraph) (a : String) (ps : NameSet) : TypeGraph :=
  g.insert ⟨a, g.parents a ∪ ps⟩

/-- One or more steps to a parent lead from `a` to `b`. -/
inductive Ancestor (g : TypeGraph) : String → String → Prop
  | parent {a b : String} (h : b ∈ g.parents a) : Ancestor g a b
  | step {a p b : String} (h : p ∈ g.parents a) (hb : Ancestor g p b) : Ancestor g a b

theorem Ancestor.trans (h : Ancestor g a b) (h' : Ancestor g b c) : Ancestor g a c := by
  induction h with
  | parent h => exact .step h h'
  | step h _ ih => exact .step h (ih h')

def Descends (g : TypeGraph) (a b : String) : Prop := a = b ∨ Ancestor g a b

theorem parents_declare (g : TypeGraph) (ps : NameSet) :
    (g.declare a ps).parents b = if b = a then g.parents a ∪ ps else g.parents b := by
  by_cases h : b = a <;> simp [declare, parents, Roster.get?_insert, h]

theorem parents_eq_empty (h : g.get? a = none) : g.parents a = ∅ := by
  simp [parents, h]

end TypeGraph

end LoadTiers
