/-! # Arguments

How the arguments of a command line are told apart: options with a value, options without one, and
names, which are all the rest.
-/

namespace LoadTiers

structure Arguments where
  values : List (String × String) := []
  flags : List String := []
  /-- All that is not an option. -/
  names : List String := []
  deriving DecidableEq, Inhabited

structure Signature where
  values : List String
  flags : List String
  /-- Whether there has to be something besides options. -/
  names : Bool

namespace Arguments

/-- Whether an argument is an option. A single hyphen is none. -/
def isOption (a : String) : Bool := a.startsWith "-" && a ≠ "-"

/-- An option and the value that is attached to it by an equals sign. -/
def attached (a : String) : String × Option String :=
  let isEquals : Char → Bool := (· == '=')
  match a.toList.dropWhile (!isEquals ·) with
  | [] => (a, none)
  | _ :: value => (.ofList (a.toList.takeWhile (!isEquals ·)), some (.ofList value))

/-- Adds an option with a value, which may be given only once. -/
def addValue (p : Arguments) (option value : String) : Option Arguments :=
  if (p.values.lookup option).isSome then none
  else some { p with values := (option, value) :: p.values }

def addFlag (p : Arguments) (option : String) : Option Arguments :=
  if option ∈ p.flags then none else some { p with flags := option :: p.flags }

/-- Reads arguments after those of `p`. A value is still to come if `waiting` is an option. Two
hyphens end the options. -/
def readAfter (s : Signature) (p : Arguments) (waiting : Option String) :
    List String → Option Arguments
  | [] => if waiting.isSome then none else some p
  | a :: rest =>
    match waiting with
    | some option =>
      if isOption a then none
      else (p.addValue option a).bind fun p => readAfter s p none rest
    | none =>
      if a = "--" then some { p with names := p.names ++ rest }
      else if isOption a then
        match attached a with
        | (option, some value) =>
          if option ∈ s.values then
            (p.addValue option value).bind fun p => readAfter s p none rest
          else none
        | (option, none) =>
          if option ∈ s.values then readAfter s p (some option) rest
          else if option ∈ s.flags then (p.addFlag option).bind fun p => readAfter s p none rest
          else none
      else readAfter s { p with names := p.names ++ [a] } none rest

def read (s : Signature) (args : List String) : Option Arguments :=
  (readAfter s {} none args).filter fun p => p.names.isEmpty != s.names

end Arguments

end LoadTiers
