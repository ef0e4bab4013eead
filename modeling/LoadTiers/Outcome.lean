import LoadTiers.Failure
import LoadTiers.FileTree

/-! # Outcomes

What a run shows and logs, and the plan of a run, which still has a file to write. Writing comes
last, and its failure takes nothing back that the plan shows.
-/

namespace LoadTiers

/-- What is logged as a warning while a request is answered. -/
inductive LogEvent
  | unmatchedFlavor (flavor : String)
  | undeclaredExtensions (names : List String)
  deriving DecidableEq

def LogEvent.message : LogEvent → String
  | unmatchedFlavor flavor =>
    s!"no feature or extension supports the requested flavor flavor={flavor.quote}"
  | undeclaredExtensions names =>
    let quoted := String.intercalate ", " (names.map String.quote)
    s!"requested extensions are not declared unknown_extensions=[{quoted}]"

structure Outcome where
  stdout : String := ""
  log : List LogEvent := []
  warnings : List String := []
  failure : Option Failure := none
  deriving DecidableEq, Inhabited

/-- A run before anything is written. -/
structure Plan extends Outcome where
  /-- The file that is to be written, and its content. -/
  output : Option (String × String) := none
  deriving DecidableEq, Inhabited

def Outcome.code (o : Outcome) : UInt32 :=
  match o.failure with
  | none => 0
  | some f => f.code

/-- What a run itself says on the error stream. -/
def Outcome.diagnostics (o : Outcome) : List String :=
  o.warnings.map ("warning: " ++ ·) ++ (o.failure.map ("error: " ++ ·.message)).toList

/-- The lines on the error stream. The logger, which makes a line of each event, comes first. -/
def Outcome.errorLines (line : LogEvent → String) (o : Outcome) : List String :=
  o.log.map line ++ o.diagnostics

namespace Plan

def fail (f : Failure) : Plan := { failure := some f }

def unwritten (p : Plan) (path : String) (fault : FileFault) : Outcome :=
  { p.toOutcome with failure := some (.unwritable path fault) }

/-- Carries out a plan. A file that cannot be written leaves the tree as it is. -/
def perform (p : Plan) (t : FileTree) : Outcome × FileTree :=
  match p.output with
  | none => (p.toOutcome, t)
  | some (path, content) =>
    match t.write path content with
    | .ok t' => (p.toOutcome, t')
    | .error fault => (p.unwritten path fault, t)

end Plan

end LoadTiers
