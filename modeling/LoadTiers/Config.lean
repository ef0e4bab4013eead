import LoadTiers.Path
import LoadTiers.Request
import LoadTiers.Tier
import LoadTiers.Toml.Document

/-! # Configurations

Standing defaults for requests, which are written as a TOML document. What a command line gives
takes precedence over them.
-/

namespace LoadTiers

inductive ExtensionList
  | list (names : List String)
  | text (raw : String)
  deriving DecidableEq

def ExtensionList.selection : ExtensionList → ExtensionSelection
  | list names => .ofNames names
  | text raw => .ofText raw

/-- Standing defaults. -/
structure Config where
  spec : Option String := none
  flavor : Option String := none
  /-- The ceiling on the API version, as it is written. -/
  api : Option String := none
  extensions : Option ExtensionList := none
  generateDisabled : Option Bool := none
  tiers : Option TierPolicy := none
  deriving DecidableEq, Inhabited

/-- What a command line gives in the place of defaults. -/
structure Overrides where
  flavor : Option String := none
  api : Option String := none
  extensions : Option String := none
  deriving DecidableEq, Inhabited

namespace Toml.Value

def string? : Value → Option String
  | .string s => some s
  | _ => none

def boolean? : Value → Option Bool
  | .boolean b => some b
  | _ => none

def strings? : Value → Option (List String)
  | .array items => items.mapM string?
  | _ => none

/-- A list of extensions, as an array or in a string. -/
def extensionList? : Value → Option ExtensionList
  | .string s => some (.text s)
  | v => v.strings?.map .list

/-- The fields of a record by name. They stand in a table, whose further entries are left aside, or
in an array in the order of `names`. A date or time is a record of other fields. -/
def fields? (names : List String) : Value → Option (String → Option Value)
  | .table _ entries => some fun n => entries.lookup n
  | .array items => some fun n => (names.zip items).lookup n
  | .dateTime _ => some fun _ => none
  | _ => none

/-- A tier policy, whose missing fields are those of Vulkan. -/
def tierPolicy? (v : Value) : Option TierPolicy := do
  let field ← v.fields? ["global_entry_points", "scope_b_root", "global_loader", "scope_b_loader"]
  let name (n : String) (default : String) : Option String :=
    ((field n).map string?).getD (some default)
  return {
    globalEntryPoints := ← match field "global_entry_points" with
      | some v => v.strings?.map .ofList
      | none => some TierPolicy.vulkan.globalEntryPoints
    scopeBRoot := ← name "scope_b_root" TierPolicy.vulkan.scopeBRoot
    globalLoader := ← name "global_loader" TierPolicy.vulkan.globalLoader
    scopeBLoader := ← name "scope_b_loader" TierPolicy.vulkan.scopeBLoader }

end Toml.Value

namespace Config

def keys : List String := ["spec", "flavor", "api", "extensions", "generate_disabled", "tiers"]

/-- A configuration as it is written. Unknown keys and unfit values are refused. -/
def ofEntries? (entries : Toml.Entries) : Option Config := do
  guard (entries.all fun (k, _) => k ∈ keys)
  let field {α : Type} (k : String) (f : Toml.Value → Option α) : Option (Option α) :=
    match entries.lookup k with
    | some v => (f v).map some
    | none => some none
  return {
    spec := ← field "spec" (·.string?)
    flavor := ← field "flavor" (·.string?)
    api := ← field "api" (·.string?)
    extensions := ← field "extensions" (·.extensionList?)
    generateDisabled := ← field "generate_disabled" (·.boolean?)
    tiers := ← field "tiers" (·.tierPolicy?) }

/-- Takes the file with the registry relative to the directory of the file at `path`. -/
def anchor (path : String) (c : Config) : Config :=
  match Path.parent? path with
  | some directory => { c with spec := c.spec.map (Path.join directory) }
  | none => c

def ofText? (path text : String) : Option Config := do
  return ((← ofEntries? (← Toml.document? text)).anchor path)

def tierPolicy (c : Config) : TierPolicy := c.tiers.getD .vulkan

def reportsDisabled (c : Config) : Bool := c.generateDisabled.getD true

/-- The request of a command line on top of the defaults. -/
def request (c : Config) (o : Overrides) : Except RegistryError Request := do
  let version ← match o.api.or c.api with
    | some raw => VersionRequest.parse raw
    | none => .ok .latest
  return {
    flavor := (o.flavor.or c.flavor).getD "vulkan"
    version
    extensions := ((o.extensions.map .ofText).or (c.extensions.map (·.selection))).getD .all }

end Config

end LoadTiers
