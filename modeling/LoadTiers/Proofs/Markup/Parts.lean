import LoadTiers.Registry.Markup
import LoadTiers.Proofs.First

/-! # The parts of a document

A document is read part by part: its types, commands, API versions and extensions. The registry is
assembled from what is read, and then marked with the header number and the digest of the text.
-/

namespace LoadTiers.Registry

open Xml

variable {root : Node} {text : String} {policy : TierPolicy} {R : Registry}

/-- The elements of one name in the blocks of another. -/
def elementsWithin (root : Node) (outer inner : String) : List Node :=
  (root.elements outer).flatMap (·.elements inner)

abbrev typeElements (root : Node) : List Node := elementsWithin root "types" "type"

abbrev commandElements (root : Node) : List Node := elementsWithin root "commands" "command"

abbrev extensionElements (root : Node) : List Node := elementsWithin root "extensions" "extension"

theorem document?_ofList (cs : List Char) : document? (.ofList cs) =
    (tokens? cs).bind fun tokens => (tokens.foldlM Partial.step? {}).bind Partial.root? := by
  rw [document?, String.toList_ofList]
  rfl

theorem ofRoot_eq_ok_iff : ofRoot root policy = .ok R ↔ root.hasTag "registry" ∧
    ∃ ds versions extensions R', (commandElements root).mapM declaration = .ok ds ∧
      (root.elements "feature").mapM apiVersion = .ok versions ∧
      (extensionElements root).mapM extension = .ok extensions ∧
      assemble (typeGraph (typeElements root)) ds
        ((versions ++ extensions).foldl FeatureSet.insert ∅) policy = .ok R' ∧
      { R' with specVersion := ((typeElements root).filterMap headerNumber?).getLast? } = R := by
  unfold ofRoot
  cases ht : root.hasTag "registry" with
  | false =>
    simp only [Bool.false_eq_true, false_and, iff_false]
    nofun
  | true =>
    simp only [Bool.not_true, Bool.false_eq_true, if_false, true_and, bind_eq_ok_iff,
      exists_and_left, pure, Except.pure, Except.ok.injEq]
    rfl

theorem read_eq_ok_iff : read text policy = .ok R ↔
    ∃ root R', document? text = some root ∧ ofRoot root policy = .ok R' ∧
      { R' with sourceDigest := some (Digest.ofText text) } = R := by
  unfold read
  cases document? text with
  | none => simp
  | some root => simp [bind_eq_ok_iff, pure, Except.pure]

end LoadTiers.Registry
