/-!
# ShopLens.Rect

Rectangles on the screen, in binary32 numbers as the game reports them, and the hovered item's
tooltip. Every comparison is false on a NaN, so a rectangle with one neither meets nor holds another.
-/

namespace ShopLens

/-- A rectangle by its upper left corner and its sides. -/
structure Rect where
  x : Float32
  y : Float32
  width : Float32
  height : Float32
deriving DecidableEq

namespace Rect

/-- The rectangle of something that is not laid out. -/
def zero : Rect := ⟨0, 0, 0, 0⟩

/-- The right edge. -/
def right (r : Rect) : Float32 := r.x + r.width

/-- The lower edge. -/
def bottom (r : Rect) : Float32 := r.y + r.height

/-- The center. -/
def center (r : Rect) : Float32 × Float32 := (r.x + r.width / 2, r.y + r.height / 2)

/-- Whether a side is at most `side`. -/
def isDegenerate (r : Rect) (side : Float32) : Bool := r.width ≤ side || r.height ≤ side

/-- Whether two rectangles share more than edges. -/
def intersects (r s : Rect) : Bool :=
  r.x < s.right && s.x < r.right && r.y < s.bottom && s.y < r.bottom

/-- Whether a point lies in the rectangle; the left and upper edges belong to it. -/
def containsPoint (r : Rect) (x y : Float32) : Bool :=
  r.x ≤ x && x < r.right && r.y ≤ y && y < r.bottom

/-- Whether `s` lies in `r`, edges included. -/
def contains (r s : Rect) : Bool :=
  r.x ≤ s.x && r.y ≤ s.y && s.right ≤ r.right && s.bottom ≤ r.bottom

/-- The rectangle grown by `amount` on every side, or shrunk by a negative amount. -/
def inflate (r : Rect) (amount : Float32) : Rect :=
  ⟨r.x - amount, r.y - amount, r.width + amount * 2, r.height + amount * 2⟩

end Rect

/-- The item under the cursor and its tooltip. -/
structure Hover where
  address : Nat
  tooltip : Rect
deriving DecidableEq

/-- Whether the tooltip covers a frame at `rect` that belongs to another item. -/
def Hover.covers (h : Hover) (rect : Rect) (address : Nat) : Bool :=
  h.address != address && h.tooltip.intersects rect

/-- A part of a window that may be outlined, such as a tab header. -/
structure Element where
  address : Nat
  rect : Rect
deriving DecidableEq

end ShopLens
