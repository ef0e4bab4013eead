/-! # Why a registry is refused -/

namespace LoadTiers

inductive RegistryError
  | notWellFormed
  /-- An element lacks something that the registry needs. -/
  | malformed (element detail : String)
  /-- A type is its own ancestor. -/
  | cyclicTypeGraph (type : String)
  /-- The alias chain of an entry point does not end within the bound. -/
  | cyclicAlias (entryPoint : String)
  /-- A name was used that no entry point has. -/
  | danglingReference (name referrer : String)
  | unknownVersionFormat (raw : String)
  deriving DecidableEq, Repr

def RegistryError.message : RegistryError → String
  | notWellFormed => "malformed specification: <registry>: the document is not well-formed"
  | malformed element detail => s!"malformed specification: <{element}>: {detail}"
  | cyclicTypeGraph type => s!"cyclic type graph at `{type}`"
  | cyclicAlias entryPoint => s!"cyclic alias chain starting at `{entryPoint}`"
  | danglingReference name referrer => s!"dangling reference to `{name}` from `{referrer}`"
  | unknownVersionFormat raw => s!"unknown version format: `{raw}`"

end LoadTiers
