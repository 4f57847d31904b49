import ShopLens.Affix
import ShopLens.Rule.Entry

/-!
# ShopLens.Settings.Basic

What the player can set, with the values before anything is set. `Settings.normalized` moves numbers
into the ranges that the menu allows, which an edited file may leave.
-/

namespace ShopLens

/-- What the player can set. -/
structure Settings where
  enable : Bool := false
  outlineHeaders : Bool := true
  /-- The color of frames that no rule colors. -/
  frameColor : Color := .opaqueRed
  frameThickness : UInt8 := 1
  autoPurchase : Bool := false
  /-- The milliseconds between two purchases. -/
  purchaseDelay : UInt32 := 100
  /-- The number of purchases on a tab before the player has to look again; 0 is no limit. -/
  purchaseLimit : UInt32 := 5
  toggleKey : String := "F5"
  purchaseColor : Color := .lime
  customFolder : String := ""
  rules : List RuleEntry := []
  affixLimits : AffixLimits := {}
  /-- The milliseconds between two looks at all tabs. -/
  tabRefresh : UInt64 := 50
  /-- The milliseconds until a selection is settled. -/
  selectionSettle : UInt64 := 120
  /-- The milliseconds between two looks at the same rewards. -/
  rewardRefresh : UInt64 := 1000
deriving DecidableEq, Repr

/-- The settings with every number in its range. -/
def Settings.normalized (s : Settings) : Settings :=
  { s with
    purchaseDelay := max 50 (min 1000 s.purchaseDelay)
    purchaseLimit := min 50 s.purchaseLimit
    frameThickness := max 1 (min 20 s.frameThickness) }

end ShopLens
