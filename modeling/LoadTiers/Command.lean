import LoadTiers.Arguments
import LoadTiers.Source

/-! # Commands

What can be asked on a command line, and the arguments that ask it.
-/

namespace LoadTiers

structure ResolveOptions extends Overrides where
  source : Source := {}
  noDisabled : Bool := false
  /-- The file that gets the report. -/
  out : Option String := none
  json : Bool := false
  deriving DecidableEq, Inhabited

inductive Command
  | version
  | resolve (options : ResolveOptions)
  | classify (source : Source) (names : List String) (json : Bool)
  | locate (source : Source) (json : Bool)
  deriving DecidableEq

namespace Arguments

/-- What the arguments say about configuration and registry. -/
def source (p : Arguments) : Source :=
  ⟨p.values.lookup "--spec", p.values.lookup "--config"⟩

end Arguments

namespace Command

def ofArguments? : List String → Option Command
  | "resolve" :: args => do
    let p ← Arguments.read
      ⟨["--spec", "--config", "--api", "--extensions", "--flavor", "--out"],
        ["--no-disabled", "--json"], false⟩ args
    return .resolve {
      flavor := p.values.lookup "--flavor"
      api := p.values.lookup "--api"
      extensions := p.values.lookup "--extensions"
      source := p.source
      noDisabled := "--no-disabled" ∈ p.flags
      out := p.values.lookup "--out"
      json := "--json" ∈ p.flags }
  | "classify" :: args => do
    let p ← Arguments.read ⟨["--spec", "--config"], ["--json"], true⟩ args
    return .classify p.source p.names ("--json" ∈ p.flags)
  | "locate" :: args => do
    let p ← Arguments.read ⟨["--spec", "--config"], ["--json"], false⟩ args
    return .locate p.source ("--json" ∈ p.flags)
  | a :: _ => if a = "--version" ∨ a.startsWith "-V" then some .version else none
  | [] => none

end Command

end LoadTiers
