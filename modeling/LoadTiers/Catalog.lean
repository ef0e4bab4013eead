import LoadTiers.Tier

/-! # Entry points

Declarations of entry points, the alias chains among them, and the catalog that gives each name its
canonical entry point and tier.
-/

namespace LoadTiers

inductive Definition
  /-- A signature of its own, whose first parameter has the owner type. -/
  | canonical (owner : Option String)
  | aliasOf (target : String)
  deriving DecidableEq, Inhabited

structure Declaration where
  name : String
  definition : Definition
  deriving DecidableEq, Inhabited

structure EntryPoint extends Declaration where
  /-- The name at the end of the alias chain. -/
  canonical : String
  /-- The owner type of the canonical entry point. -/
  ownerType : Option String
  tier : Tier
  deriving DecidableEq, Inhabited

def Declaration.aliasTarget (d : Declaration) : Option String :=
  match d.definition with
  | .aliasOf target => some target
  | .canonical _ => none

def Declaration.isAlias (d : Declaration) : Bool := d.aliasTarget.isSome

abbrev EntryPoint.key (e : EntryPoint) : String := e.name

abbrev Declarations := Roster Declaration.name

/-- The first declaration of each name. -/
def Declarations.ofList (ds : List Declaration) : Declarations :=
  ds.foldl (fun seen d => if seen.contains d.name then seen else seen.insert d) ∅

inductive ChainEnd
  | canonical (name : String) (owner : Option String)
  | missing (name : String)
  /-- Further than the bound on aliases. -/
  | unbounded
  deriving DecidableEq

/-- How many aliases may stand between a name and its canonical declaration. -/
def maxAliasDepth : Nat := 8

/-- Follows alias targets, at most `depth` of them. -/
def Declarations.follow (declared : Declarations) (depth : Nat) (name : String) : ChainEnd :=
  match declared.get? name with
  | none => .missing name
  | some d =>
    match d.definition, depth with
    | .canonical owner, _ => .canonical name owner
    | .aliasOf _, 0 => .unbounded
    | .aliasOf target, depth + 1 => declared.follow depth target

abbrev Catalog := Roster EntryPoint.key

namespace Catalog

/-- Gives a declaration its canonical entry point and tier. -/
def enter (declared : Declarations) (types : TypeGraph) (policy : TierPolicy) (d : Declaration) :
    Except RegistryError EntryPoint :=
  match declared.follow maxAliasDepth d.name with
  | .canonical canonical ownerType => do
    let tier ← policy.classify types canonical ownerType
    return { d with canonical, ownerType, tier }
  | .missing name => .error (.danglingReference name d.name)
  | .unbounded => .error (.cyclicAlias d.name)

/-- The catalog of the first declarations; the least name that cannot be entered refuses it. -/
def build (ds : List Declaration) (types : TypeGraph) (policy : TierPolicy) :
    Except RegistryError Catalog := do
  let declared := Declarations.ofList ds
  return .ofList (← declared.toList.mapM (enter declared types policy))

def require (catalog : Catalog) (name referrer : String) : Except RegistryError EntryPoint :=
  match catalog.get? name with
  | some entry => .ok entry
  | none => .error (.danglingReference name referrer)

def tierOf (catalog : Catalog) (name : String) : Option Tier := (catalog.get? name).map (·.tier)

end Catalog

end LoadTiers
