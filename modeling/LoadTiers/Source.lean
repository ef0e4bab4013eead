import LoadTiers.Config
import LoadTiers.Environment
import LoadTiers.Failure
import LoadTiers.Registry.Markup

/-! # Sources

Where a command gets its configuration and its registry from, and how both are read from a disk.
-/

namespace LoadTiers

/-- The configuration and the registry that a command line asks for, if it does. -/
structure Source where
  spec : Option String := none
  config : Option String := none
  deriving DecidableEq, Inhabited

namespace Config

def load (d : Disk) (path : String) : Except Failure Config :=
  match d.read path with
  | .error fault => .error (.unreadable path fault)
  | .ok text =>
    match ofText? path text with
    | none => .error (.badConfig path)
    | some c => .ok c

/-- The file that is read if no other is given. -/
def defaultPath : String := "vkfl.toml"

end Config

def Registry.load (d : Disk) (path : String) (policy : TierPolicy) : Except Failure Registry :=
  match d.read path with
  | .error fault => .error (.unreadable path fault)
  | .ok text => (Registry.read text policy).mapError .registry

namespace Source

/-- The configuration of a source, which may be missing only if no file is given. -/
def loadConfig (s : Source) (d : Disk) : Except Failure Config :=
  match s.config with
  | some path => Config.load d path
  | none => if d.isFile Config.defaultPath then Config.load d Config.defaultPath else .ok {}

/-- The file that is said to be the registry, on the command line or else in the configuration. -/
def chosen? (s : Source) (c : Config) : Option String := s.spec.or c.spec

/-- The file with the registry: the chosen one, else the first candidate that is a file. -/
def locate (s : Source) (c : Config) (d : Disk) (e : Environment) : Except Failure String :=
  match s.chosen? c with
  | some path => .ok path
  | none =>
    match e.candidates.find? d.isFile with
    | some path => .ok path
    | none => .error (.nothingFound e.candidates)

def candidates (s : Source) (c : Config) (e : Environment) : List String :=
  match s.chosen? c with
  | some path => [path]
  | none => e.candidates

end Source

end LoadTiers
