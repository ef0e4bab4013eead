import LoadTiers.Disk
import LoadTiers.Path

/-! # File trees

A file system of files and directories with a working directory, where paths lead in it, and how a
file is read and written.
-/

namespace LoadTiers

/-- Where a file or directory stands: the names that lead to it from the root. -/
abbrev Location := List String

/-- A tree of files. Every location above one in the tree is a directory, and so is the working
directory, from which relative paths start. -/
structure FileTree where
  files : List (Location × String) := []
  directories : List Location := []
  workingDirectory : Location := []
  deriving DecidableEq

inductive FileNode
  | file (content : String)
  | directory
  deriving DecidableEq

/-- Makes a step from a directory. The root is above itself. -/
def Location.enter (l : Location) : String → Location
  | "." => l
  | ".." => l.dropLast
  | name => l ++ [name]

namespace FileTree

/-- Whether a location is that of a directory, or above one or above a file. -/
def hasDirectory (t : FileTree) (l : Location) : Bool :=
  l = [] ∨ (t.files.any fun f => l.isPrefixOf f.1) ∨ t.directories.any l.isPrefixOf ∨
    l.isPrefixOf t.workingDirectory

def node? (t : FileTree) (l : Location) : Option FileNode :=
  match t.files.lookup l with
  | some content => some (.file content)
  | none => if t.hasDirectory l then some .directory else none

/-- How many bytes a name may have. -/
def maxNameSize : Nat := 255

/-- How many bytes a path may have. -/
def maxPathSize : Nat := 4095

/-- Follows steps, each of which starts in a directory. -/
def follow (t : FileTree) (l : Location) : List String → Except FileFault Location
  | [] => .ok l
  | step :: steps =>
    match t.node? l with
    | none => .error .missing
    | some (.file _) => .error .notDirectory
    | some .directory =>
      if maxNameSize < step.utf8ByteSize then .error .nameTooLong
      else t.follow (l.enter step) steps

def find (t : FileTree) (path : String) : Except FileFault Location :=
  if '\x00' ∈ path.toList then .error .nulInPath
  else if maxPathSize < path.utf8ByteSize then .error .nameTooLong
  else if path = "" then .error .missing
  else
    t.follow (if Path.isAbsolute path then [] else t.workingDirectory)
      ((Text.splitOn '/' path).filter (· ≠ ""))

/-- Whether a path names a directory by its last character. -/
def namesDirectory (path : String) : Bool := path.toList.getLast? == some '/'

/-- What a path leads to. Each file can be read. -/
def look (t : FileTree) (path : String) : Sight :=
  match t.find path with
  | .error fault => .noFile fault
  | .ok l =>
    match t.node? l with
    | none => .noFile .missing
    | some .directory => .noFile .isDirectory
    | some (.file content) =>
      if namesDirectory path then .noFile .notDirectory else .file content

def disk (t : FileTree) : Disk := ⟨t.look⟩

def read (t : FileTree) (path : String) : Except FileFault String := t.disk.read path

def put (t : FileTree) (l : Location) (content : String) : FileTree :=
  { t with files := (l, content) :: t.files.filter (·.1 ≠ l) }

/-- Where the file at a path is written. Its directory has to exist. -/
def target (t : FileTree) (path : String) : Except FileFault Location := do
  let l ← t.find path
  if namesDirectory path ∨ t.node? l = some .directory then .error .isDirectory else .ok l

def write (t : FileTree) (path content : String) : Except FileFault FileTree :=
  (t.target path).map (t.put · content)

end FileTree

end LoadTiers
