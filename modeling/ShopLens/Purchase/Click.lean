import ShopLens.Purchase.Input
import ShopLens.Rect

/-!
# ShopLens.Purchase.Click

Buying an item is a click on it with a control key held. Both control keys are let go afterwards,
whatever happened before.
-/

namespace ShopLens

/-- A click nearer than this to the edge of the game window is refused. -/
def edgeMargin : Float32 := 36

/-- Where to click for an item laid out at `item` in a game window at `window`, if it is safe: the item
has an area, and its center is not too near to the edge. -/
def clickTarget? (item window : Rect) : Option (Float32 × Float32) :=
  let (x, y) := item.center
  let reachable := Rect.inflate ⟨0, 0, window.width, window.height⟩ (-edgeMargin)
  if !item.isDegenerate 1 && reachable.containsPoint x y then some (x + window.x, y + window.y)
  else none

/-- The calls that click at a place with the left control key held. -/
def pressCalls (x y : Float32) : List InputCall :=
  [.act (.move x y), .settle 35, .act (.keyDown .left), .settle 25, .act .click, .settle 15]

/-- The first of two failures, if there is one. -/
def firstFailure (a b : Except InputError Unit) : Except InputError Unit :=
  match a with
  | .ok () => b
  | .error e => .error e

/-- Clicks at a place with the left control key held. -/
def controlClick {σ : Type} (d : InputDriver σ) (s : σ) (x y : Float32) :
    σ × Except InputError Unit :=
  let (s, pressed) := d.callAll s (pressCalls x y)
  let (s, leftUp) := d.act s (.keyUp .left)
  let (s, rightUp) := d.act s (.keyUp .right)
  (s, firstFailure pressed (firstFailure leftUp rightUp))

end ShopLens
