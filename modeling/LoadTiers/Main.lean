import LoadTiers.Command.Run
import Std.Time.DateTime.Timestamp

/-! # The program

Looks at the files that matter to a command, makes the plan of the command, carries it out and shows
the outcome.
-/

namespace LoadTiers.Program

def fault : IO.Error → FileFault
  | .noFileOrDirectory .. => .missing
  | .permissionDenied .. => .denied
  | .inappropriateType _ code _ => if code = 21 then .isDirectory else .notDirectory
  | .userError _ => .notText
  | e => .system (toString e)

/-- Looks at a path. What can be read counts as a file, and so does a file that cannot be read; a
directory without access does not. -/
def look (path : String) : IO Sight := do
  try
    return .file (← IO.FS.readFile path)
  catch e =>
    let isFile ←
      try pure ((← (← IO.FS.realPath path).metadata).type == .file) catch _ => pure false
    return if isFile then .unreadable (fault e) else .noFile (fault e)

def lookAll (paths : List String) : IO (List (String × Sight)) :=
  paths.mapM fun (path : String) => return (path, ← look path)

/-- Looks at the configuration, and then at the files that can be the registry. -/
def survey (s : Source) (e : Environment) : IO Disk := do
  let seen ← lookAll [s.config.getD Config.defaultPath]
  let paths := match s.loadConfig (.ofList seen) with
    | .ok c => s.candidates c e
    | .error _ => []
  return .ofList (seen ++ (← lookAll paths))

def now : IO Timestamp := do
  let n := (← Std.Time.Timestamp.now).toNanosecondsSinceUnixEpoch.val
  match Timestamp.ofUnix? (n / 1000000000) (n % 1000000000).toNat with
  | some t => return t
  | none => throw (.userError "the clock is out of range")

def perform (p : Plan) : IO Outcome :=
  match p.output with
  | none => return p.toOutcome
  | some (path, content) => do
    try
      IO.FS.writeFile path content
      return p.toOutcome
    catch e => return p.unwritten path (fault e)

def outcome (args : List String) : IO Outcome :=
  match Command.ofArguments? args with
  | none => return { failure := some .usage }
  | some c => do
    let e : Environment :=
      ⟨← IO.getEnv "VULKAN_SDK", ← IO.getEnv "VULKAN_SDK_PATH", ← IO.getEnv "HOME"⟩
    perform (c.plan ⟨← survey c.source e, e, ← now⟩)

end LoadTiers.Program

def main (args : List String) : IO UInt32 := do
  let o ← LoadTiers.Program.outcome args
  let time := (← LoadTiers.Program.now).text "Z"
  IO.print o.stdout
  (o.errorLines fun e => s!"{time}  WARN {e.message}").forM (IO.eprintln ·)
  return o.code
