import LoadTiers.Text.Separated

/-! # Paths

The directory that a path names a file in, and paths that are taken relative to a directory. A path
stays as it is written but for the steps at its end that lead nowhere.
-/

namespace LoadTiers.Path

open Text

def isAbsolute (p : String) : Bool := p.toList.head? == some '/'

/-- A step that stays where it is. -/
def isIdle (step : List Char) : Bool := step = [] ∨ step = ['.']

/-- Parts a path into where it starts, which is the root, the dot that it starts with, or nothing,
and the rest. -/
def start : List Char → List Char × List Char
  | '/' :: s => (['/'], s)
  | ['.'] => (['.'], [])
  | '.' :: '/' :: s => (['.'], '/' :: s)
  | s => ([], s)

/-- The steps of a path as they are written, the last one first and without those at the end that
lead nowhere. -/
def stepsBack (s : List Char) : List (List Char) := (fields '/' s).reverse.dropWhile isIdle

/-- The path without its last step. The root and the empty path have no step. -/
def parent? (p : String) : Option String :=
  let (front, body) := start p.toList
  match stepsBack body with
  | [] => if front = ['.'] then some "" else none
  | _ :: steps => some (.ofList (front ++ joinBy '/' (steps.dropWhile isIdle).reverse))

/-- Takes `q` relative to the directory `p`. -/
def join (p q : String) : String :=
  if isAbsolute q ∨ p = "" then q
  else if p.toList.getLast? = some '/' then p ++ q
  else p ++ "/" ++ q

end LoadTiers.Path
