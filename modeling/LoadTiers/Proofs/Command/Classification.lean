import LoadTiers.Proofs.Command.Plans
import LoadTiers.Proofs.Resolution.Json
import LoadTiers.Proofs.Resolution.Loading
import LoadTiers.Proofs.Summary

/-! # Classifications and resolutions

What is told about a name when it is classified holds in every resolution that enables its entry
point. Both commands take the tier from entries, one from that of the name and the other from those
of the enabled names, and the entries of one entry point agree.
-/

namespace LoadTiers

namespace Classification

variable {R : Registry} {path n c : String} {names : List String} {t : Tier} {loader : Bool}

end Classification

/-- How an enabled entry point is listed: once in one tier, and in what is to be loaded there unless
it loads the tier itself, which a summary tells by a mark on its line. -/
structure Resolution.Lists (r : Resolution) (c : String) (t : Tier) (loader : Bool) : Prop where
  listed : (r.tiers.get t).count c = 1
  unique : ∀ t', c ∈ r.tiers.get t' → t' = t
  loaded : loader = true ↔ c ∉ r.loadSequences.get t
  legible : ∀ f, ∃ marked, Report.Marks f r marked (Report.summary f r)
  shown : ∀ f marked, Report.Marks f r marked (Report.summary f r) → marked t c = loader

/-- The text that a plan shows, in a file or else on the output stream. -/
def Plan.text (p : Plan) : String :=
  match p.output with
  | some (_, text) => text
  | none => p.stdout

namespace Registry

variable {R : Registry} {q : Request} {r : Resolution} {n c : String} {t : Tier} {e : EntryPoint}

end Registry

namespace Classification

variable {s : Source} {x : Setting} {cfg : Config} {path text n : String} {R : Registry}
  {names : List String}

end Classification

end LoadTiers
