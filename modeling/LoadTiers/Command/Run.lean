import LoadTiers.Classification
import LoadTiers.Command
import LoadTiers.Outcome
import LoadTiers.Report.Json
import LoadTiers.Report.Summary

/-! # Running commands

What a command shows, and which file it writes. The plan of a command is made from what can be
read; only a resolution can have something to write.
-/

namespace LoadTiers

/-- What a command finds when it starts. -/
structure Setting where
  disk : Disk
  environment : Environment
  now : Timestamp

/-- A text that ends with a line break. -/
def endLine (s : String) : String := if s.endsWith "\n" then s else s ++ "\n"

namespace Resolution

/-- What a resolution warns of: a flavor that nothing supports, and extensions that do not exist. -/
def warnings (r : Resolution) (path : String) : List String :=
  (if r.flavorMatched then []
    else [s!"no API version or extension in {path} supports flavor `{r.flavor}`"]) ++
    r.unknownExtensions.map fun name => s!"unknown extension `{name}`"

def log (r : Resolution) : List LogEvent :=
  (if r.flavorMatched then [] else [.unmatchedFlavor r.flavor]) ++
    if r.unknownExtensions = [] then [] else [.undeclaredExtensions r.unknownExtensions]

end Resolution

namespace ResolveOptions

def report (o : ResolveOptions) (f : Facts) (r : Resolution) : String :=
  if o.json then Report.json f r else Report.summary f r

def plan (o : ResolveOptions) (x : Setting) : Except Failure Plan := do
  let config ← o.source.loadConfig x.disk
  let request ← (config.request o.toOverrides).mapError .registry
  let path ← o.source.locate config x.disk x.environment
  let registry ← Registry.load x.disk path config.tierPolicy
  let resolution ← (registry.resolve request).mapError .registry
  let facts := { Facts.derive registry resolution with
    includeDisabled := config.reportsDisabled && !o.noDisabled
    generatedAt := some x.now }
  let log := resolution.log
  let warnings := resolution.warnings path
  let text := o.report facts resolution
  return match o.out with
    | some path => { log, warnings, output := some (path, text) }
    | none => { log, warnings, stdout := endLine text }

end ResolveOptions

def Classification.plan (s : Source) (names : List String) (json : Bool) (x : Setting) :
    Except Failure Plan := do
  let config ← s.loadConfig x.disk
  let path ← s.locate config x.disk x.environment
  let registry ← Registry.load x.disk path config.tierPolicy
  let unknown := unknown registry names
  return {
    stdout :=
      if json then (toJson registry path names).pretty ++ "\n"
      else String.join (names.map (line registry · ++ "\n"))
    failure := if unknown = [] then none else some (.unknownEntryPoints unknown) }

/-- The plan of a search for the registry, which has to be a file. -/
def Source.plan (s : Source) (json : Bool) (x : Setting) : Except Failure Plan := do
  let config ← s.loadConfig x.disk
  let path ← s.locate config x.disk x.environment
  let present := x.disk.isFile path
  return {
    stdout :=
      if json then (Json.obj [("exists", .bool present), ("path", .str path)]).pretty ++ "\n"
      else path ++ "\n"
    failure := if present then none else some (.noRegistry path) }

namespace Command

def versionLine : String := "vkfl 0.1.0"

def plan (c : Command) (x : Setting) : Plan :=
  let made : Except Failure Plan := match c with
    | .version => .ok { stdout := versionLine ++ "\n" }
    | .resolve options => options.plan x
    | .classify source names json => Classification.plan source names json x
    | .locate source json => source.plan json x
  match made with
  | .ok p => p
  | .error f => .fail f

def source : Command → Source
  | .version => {}
  | .resolve options => options.source
  | .classify s _ _ => s
  | .locate s _ => s

end Command

def run (args : List String) (t : FileTree) (e : Environment) (now : Timestamp) :
    Outcome × FileTree :=
  match Command.ofArguments? args with
  | none => ({ failure := some .usage }, t)
  | some c => (c.plan ⟨t.disk, e, now⟩).perform t

end LoadTiers
