/-!
# ShopLens.Clock

Times are milliseconds since an arbitrary start. A clock that was set back counts as one that stands
still, so an interval has passed only if the clock shows it.
-/

namespace ShopLens

/-- Whether `interval` has passed between a moment and now; it has if there was no such moment. -/
def hasPassed (interval : Nat) (since : Option Nat) (now : Nat) : Bool :=
  match since with
  | none => true
  | some start => interval ≤ now - start

@[simp] theorem hasPassed_none (interval now : Nat) : hasPassed interval none now = true := rfl

@[simp] theorem hasPassed_some (interval start now : Nat) :
    hasPassed interval (some start) now = decide (interval ≤ now - start) := rfl

end ShopLens
