import ShopLens.Clock

/-!
# ShopLens.Purchase.Toggle

The key that switches buying on and off. It acts when it goes down, not while it is held, and not
within a second after it last acted.
-/

namespace ShopLens

/-- The state of the key. -/
structure Toggle where
  held : Bool := false
  lastFired : Option Nat := none
deriving DecidableEq, Repr

/-- The milliseconds in which the key does not act again. -/
def toggleRest : Nat := 1000

namespace Toggle

/-- Whether the key acts when it is found down or up. -/
def fires (t : Toggle) (down : Bool) (now : Nat) : Bool :=
  down && !t.held && hasPassed toggleRest t.lastFired now

/-- Takes note of the key. -/
def update (t : Toggle) (down : Bool) (now : Nat) : Toggle where
  held := down
  lastFired := if t.fires down now then some now else t.lastFired

end Toggle

end ShopLens
