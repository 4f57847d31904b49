import ShopLens.Item

/-!
# ShopLens.Window.Slot

The places of a grid in which a window lays out items.
-/

namespace ShopLens

/-- A place in a grid. -/
structure Slot where
  item : Option Item
  rect : Rect
  visible : Bool

/-- The item in a slot, if the game knows it. -/
def Slot.liveItem? (s : Slot) : Option Item := s.item.filter Item.isLive

end ShopLens
