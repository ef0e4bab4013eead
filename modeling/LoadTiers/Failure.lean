import LoadTiers.Disk
import LoadTiers.Error

/-! # Why a command fails -/

namespace LoadTiers

inductive Failure
  /-- The arguments make no command. -/
  | usage
  | registry (e : RegistryError)
  | unreadable (path : String) (fault : FileFault)
  | unwritable (path : String) (fault : FileFault)
  | badConfig (path : String)
  | nothingFound (searched : List String)
  /-- The registry is not a file. -/
  | noRegistry (path : String)
  | unknownEntryPoints (names : List String)
  deriving DecidableEq, Repr

namespace Failure

def message : Failure → String
  | usage => "usage: vkfl resolve|classify|locate [OPTIONS]"
  | registry e => e.message
  | unreadable path fault => s!"failed to read {path}: {fault.message}"
  | unwritable path fault => s!"failed to write {path}: {fault.message}"
  | badConfig path => s!"failed to parse config {path}: not a configuration"
  | nothingFound searched => "vk.xml not found; searched: " ++ String.intercalate ", " searched
  | noRegistry path => s!"registry not found at {path}"
  | unknownEntryPoints names => "unknown entry points: " ++ String.intercalate ", " names

def code : Failure → UInt32
  | usage => 2
  | _ => 1

end Failure

end LoadTiers
