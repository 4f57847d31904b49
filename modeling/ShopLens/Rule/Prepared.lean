import ShopLens.Rule.Comments
import ShopLens.Rule.Lines
import ShopLens.Rule.Threshold

/-!
# ShopLens.Rule.Prepared

A rule text made ready for the filter language: one expression, and the numbers of open affixes that
stand beside it.
-/

namespace ShopLens.Rule

/-- A rule text made ready. -/
structure Prepared where
  expression : String
  thresholds : Thresholds
deriving DecidableEq, Repr

/-- Makes a rule text ready: comments are removed, lines are joined, and comparisons of open affixes
are taken out, those of prefixes first. -/
def prepare (text : String) : Prepared :=
  let joined := joinLines (stripComments text.toList)
  let (prefixes, withoutPrefixes) := extract .prefixMod joined
  let (suffixes, expression) := extract .suffixMod withoutPrefixes
  ⟨String.ofList expression, ⟨leastOf prefixes, leastOf suffixes⟩⟩

end ShopLens.Rule
