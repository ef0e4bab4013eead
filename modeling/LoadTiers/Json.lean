/-! # JSON values

JSON values, how to look into them, and how records are read from them.
-/

namespace LoadTiers

/-- A JSON value. Members of an object keep their order. -/
inductive Json
  | null
  | bool (b : Bool)
  | int (n : Int)
  /-- The number `mantissa / 10 ^ places`, written with a fraction. -/
  | decimal (mantissa : Int) (places : Nat)
  | str (s : String)
  | arr (items : List Json)
  | obj (members : List (String × Json))
  deriving Inhabited

namespace Json

def strings (l : List String) : Json := arr (l.map str)

/-- A text, or `null` for none. -/
def optional : Option String → Json
  | none => null
  | some s => str s

/-- A member that is written only if there is a text for it. -/
def optionalMember (name : String) : Option String → List (String × Json)
  | none => []
  | some s => [(name, str s)]

def str? : Json → Option String
  | str s => some s
  | _ => none

def bool? : Json → Option Bool
  | bool b => some b
  | _ => none

/-- A whole number below `2 ^ 64`. -/
def word? : Json → Option UInt64
  | int (.ofNat n) => if h : n < UInt64.size then some (.ofNatLT n h) else none
  | _ => none

def list? {α : Type} (f : Json → Option α) : Json → Option (List α)
  | arr items => items.mapM f
  | _ => none

/-- `null` as none, and any other value read with `f`. -/
def option? {α : Type} (f : Json → Option α) : Json → Option (Option α)
  | null => some none
  | j => (f j).map some

def strings? : Json → Option (List String) := list? str?

/-- The fields of a record by name. A record is an object, whose further members are left aside, or
an array of its fields in their order, of which those after the first `least` may be missing. -/
def record? (names : List String) (least : Nat) : Json → Option (String → Option Json)
  | obj members => some fun n => members.lookup n
  | arr items =>
    if least ≤ items.length ∧ items.length ≤ names.length then
      some fun n => (names.zip items).lookup n
    else none
  | _ => none

def fieldD {α : Type} (field : Option Json) (f : Json → Option α) (default : α) : Option α :=
  match field with
  | some j => f j
  | none => some default

end Json

end LoadTiers
