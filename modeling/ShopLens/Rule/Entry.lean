import ShopLens.Color

/-!
# ShopLens.Rule.Entry

Rules as settings remember them. The order of the entries is the precedence of the rules.
-/

namespace ShopLens

/-- A rule as settings remember it. -/
structure RuleEntry where
  name : String
  location : String
  enabled : Bool := false
  color : Color := .opaqueRed
deriving DecidableEq, Repr

/-- A key for what is remembered about a rule. -/
def RuleEntry.key (r : RuleEntry) : String := r.name ++ "|" ++ r.location

end ShopLens
