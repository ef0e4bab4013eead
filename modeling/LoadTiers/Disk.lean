/-! # Disks

What can be read, and why it may be impossible to read or write a file.
-/

namespace LoadTiers

inductive FileFault
  | missing
  | denied
  | notDirectory
  | isDirectory
  | nameTooLong
  | nulInPath
  /-- A content that is not UTF-8. -/
  | notText
  /-- Anything else, in the words of the system. -/
  | system (wording : String)
  deriving DecidableEq, Repr

def FileFault.message : FileFault → String
  | missing => "No such file or directory (os error 2)"
  | denied => "Permission denied (os error 13)"
  | notDirectory => "Not a directory (os error 20)"
  | isDirectory => "Is a directory (os error 21)"
  | nameTooLong => "File name too long (os error 36)"
  | nulInPath => "file name contained an unexpected NUL byte"
  | notText => "stream did not contain valid UTF-8"
  | system wording => wording

/-- What a path leads to. Only a file can be read, and not every one. -/
inductive Sight
  | file (content : String)
  | unreadable (fault : FileFault)
  /-- A directory, or nothing. -/
  | noFile (fault : FileFault)
  deriving DecidableEq

def Sight.isFile : Sight → Bool
  | file _ => true
  | unreadable _ => true
  | noFile _ => false

def Sight.content : Sight → Except FileFault String
  | file content => .ok content
  | unreadable fault => .error fault
  | noFile fault => .error fault

theorem Sight.content_eq_ok_iff {s : Sight} {text : String} :
    s.content = .ok text ↔ s = .file text := by
  cases s <;> simp [content]

/-- A view of files: what a look at each path shows. -/
structure Disk where
  look : String → Sight

namespace Disk

def read (d : Disk) (path : String) : Except FileFault String := (d.look path).content

def isFile (d : Disk) (path : String) : Bool := (d.look path).isFile

theorem isFile_of_read {d : Disk} {path text : String} (h : d.read path = .ok text) :
    d.isFile path := by
  rw [isFile, Sight.content_eq_ok_iff.mp h]
  rfl

/-- The view of someone who has looked at some paths only. -/
def ofList (seen : List (String × Sight)) : Disk :=
  ⟨fun path => (seen.lookup path).getD (.noFile .missing)⟩

end Disk

end LoadTiers
