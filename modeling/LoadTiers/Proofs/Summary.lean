import LoadTiers.Report.Summary
import Mathlib.Data.List.Forall2

/-! # What a summary marks

A summary ends with a line for each entry point, and one that loads its tier is marked there. The
text tells which lines are marked, whatever the names are.
-/

namespace LoadTiers.Report

variable {f : Facts} {r : Resolution} {l l' m m' : List String} {n : String}

def aliasNote (r : Resolution) (n : String) : String :=
  match r.aliases.get? n with
  | some group => " <- " ++ commas group.aliases.toList
  | none => ""

def markedLine (r : Resolution) (marked : Bool) (n : String) : String :=
  "    " ++ n ++ (if marked then " (loader)" else "") ++ aliasNote r n

/-- A text is laid out like a summary: each name of a tier has one line there, which is marked or
not. -/
def Marks (f : Facts) (r : Resolution) (marked : Tier → String → Bool) (text : String) : Prop :=
  text = unlines (headLines f r ++ Tier.all.flatMap fun t =>
    tierTitle r t :: (r.tiers.get t).map fun n => markedLine r (marked t n) n)

section Lines

end Lines

end LoadTiers.Report
