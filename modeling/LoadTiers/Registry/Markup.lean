import LoadTiers.Digest
import LoadTiers.Registry
import LoadTiers.Text.Uppercase
import LoadTiers.Xml.Document

/-! # Registries in XML

Reads a registry from its document. Only direct children of known names are looked at; everything
else in the document is left aside.
-/

namespace LoadTiers.Registry

open Text Xml

/-- The text that the first element of a name starts with, without blanks at its ends. -/
def childText? (n : Node) (tag : String) : Option String :=
  (n.elements tag).head?.bind fun child => child.leadingText?.map trim

/-- An attribute without blanks at its ends, if something is left of it. -/
def filled? (n : Node) (name : String) : Option String :=
  ((n.attribute? name).map trim).filter (· ≠ "")

def elementText (n : Node) : String :=
  let tag := n.tag?.getD ""
  match n.attribute? "name" with
  | some name => s!"{tag} name=\"{name}\""
  | none => tag

/-- An attribute that has to be there and not be blank. -/
def required (n : Node) (name : String) : Except RegistryError String :=
  match filled? n name with
  | some value => .ok value
  | none => .error (.malformed (elementText n) s!"missing `{name}` attribute")

/-- The items of a list with commas, without blanks at their ends. Empty items do not count. -/
def commaList (raw : String) : NameSet :=
  .ofList (((splitOn ',' raw).map trim).filter (· ≠ ""))

/-- The name of a type: the attribute as it is, or else the text of the element. -/
def typeName? (n : Node) : Option String := (n.attribute? "name").or (childText? n "name")

/-- The parents that a type lists. The type that it is an alias of counts as one. -/
def typeParents (n : Node) : NameSet :=
  let listed := (n.attribute? "parent").elim ∅ commaList
  match filled? n "alias" with
  | some target => listed.insert target
  | none => listed

def fromFirst (n : Node) (tag : String) : List Node := n.children.dropWhile (!·.hasTag tag)

/-- The header number, if the type is the one that gives it: the text directly after the name. -/
def headerNumber? (n : Node) : Option String :=
  match fromFirst n "name" with
  | name :: after :: _ =>
    if name.leadingText?.map trim = some "VK_HEADER_VERSION" then
      (after.content?.map trim).filter (· ≠ "")
    else none
  | _ => none

def declaration (n : Node) : Except RegistryError Declaration := do
  if (n.attribute? "alias").isSome then
    return ⟨← required n "name", .aliasOf (← required n "alias")⟩
  else
    match (n.elements "proto").head? with
    | none => .error (.malformed "command" "missing <proto>")
    | some proto =>
      match (childText? proto "name").filter (· ≠ "") with
      | none => .error (.malformed "command/proto" "missing <name>")
      | some name =>
        let owner := (n.elements "param").head?.bind (childText? · "type")
        return ⟨name, .canonical owner⟩

def blockCommands (n : Node) (block : String) : Except RegistryError NameSet := do
  let commands := (n.elements block).flatMap (·.elements "command")
  return .ofList (← commands.mapM (required · "name"))

def apiVersion (n : Node) : Except RegistryError Feature := do
  let name ← required n "name"
  let version ← Version.parse (← required n "number")
  let flavors := commaList (← required n "api")
  let adds ← blockCommands n "require"
  let removes ← blockCommands n "remove"
  return { name, kind := .apiVersion, version, flavors, adds, removes }

/-- The revision of an extension: the value of the constant that is named after the extension, or
`0.0` without one. -/
def revision (n : Node) (name : String) : Except RegistryError Version :=
  let constant := uppercase name ++ "_SPEC_VERSION"
  let found := ((n.elements "require").flatMap (·.elements "enum")).find? fun e =>
    e.attribute? "name" == some constant
  match found.bind (·.attribute? "value") with
  | some raw => Version.parse (.ofList (trimBy (· == '"') raw.toList))
  | none => .ok {}

/-- Reads an extension. It is deprecated if it says what it is deprecated or obsoleted by, even if
that is blank. -/
def extension (n : Node) : Except RegistryError Feature := do
  let name ← required n "name"
  let flavors := commaList (← required n "supported")
  let version ← revision n name
  let adds ← blockCommands n "require"
  let kind := match (n.attribute? "deprecatedby").or (n.attribute? "obsoletedby") with
    | some successor => .extension true ((some (trim successor)).filter (· ≠ ""))
    | none => .extension false none
  return { name, kind, version, flavors, adds }

def typeGraph (types : List Node) : TypeGraph :=
  types.foldl (fun g n => match typeName? n with
    | some name => g.declare name (typeParents n)
    | none => g) ∅

def ofRoot (root : Node) (policy : TierPolicy) : Except RegistryError Registry := do
  if !root.hasTag "registry" then
    throw (.malformed (root.tag?.getD "") "document root must be <registry>")
  let within (outer inner : String) := (root.elements outer).flatMap (·.elements inner)
  let types := within "types" "type"
  let declarations ← (within "commands" "command").mapM declaration
  let versions ← (root.elements "feature").mapM apiVersion
  let extensions ← (within "extensions" "extension").mapM extension
  let registry ← assemble (typeGraph types) declarations
    ((versions ++ extensions).foldl FeatureSet.insert ∅) policy
  return { registry with specVersion := (types.filterMap headerNumber?).getLast? }

def read (text : String) (policy : TierPolicy) : Except RegistryError Registry :=
  match document? text with
  | none => .error .notWellFormed
  | some root => do
    return { ← ofRoot root policy with sourceDigest := some (Digest.ofText text) }

end LoadTiers.Registry
