import ShopLens.Clock
import ShopLens.Item
import ShopLens.Purchase.Click
import ShopLens.Settings.Basic

/-!
# ShopLens.Purchase.Planner

Which item is bought next, and when: only while buying is switched on, up to a number of purchases per
tab, and with a delay between two attempts. The purchases on a tab are counted anew when the player
comes back to it.
-/

namespace ShopLens

/-- Where purchases are counted apart. -/
inductive TabKey where
  | tab (title : String)
  | offers
  | buyback
deriving DecidableEq, Repr

/-- How an attempt to buy ends. -/
inductive PurchaseOutcome where
  | disabled
  | limitReached
  | cooldown
  | outOfReach
  | purchased
  | failed (e : InputError)
deriving DecidableEq, Repr

/-! ## counting -/

/-- Numbers of purchases; places that are not listed have none. -/
abbrev Tally : Type := List (TabKey × Nat)

namespace Tally

/-- The number of purchases at a place. -/
def count (t : Tally) (key : TabKey) : Nat := (t.lookup key).getD 0

/-- The tally with another number of purchases at a place. -/
def set (t : Tally) (key : TabKey) (n : Nat) : Tally := (key, n) :: t.filter (·.1 ≠ key)

end Tally

/-! ## planning -/

/-- What decides on purchases. -/
structure Planner where
  enabled : Bool
  /-- The milliseconds between two attempts. -/
  delay : Nat
  /-- The number of purchases per place; 0 is no limit. -/
  limit : Nat
  tally : Tally := []
  lastTab : Option String := none
  lastAttempt : Option Nat := none

namespace Planner

/-- Takes over settings; purchases stay counted. -/
def configure (p : Planner) (s : Settings) : Planner :=
  { p with
    enabled := s.autoPurchase
    delay := s.purchaseDelay.toNat
    limit := s.purchaseLimit.toNat }

/-- The planner at the start. -/
def new (s : Settings) : Planner :=
  { enabled := s.autoPurchase, delay := s.purchaseDelay.toNat, limit := s.purchaseLimit.toNat }

/-- Switches buying on or off. -/
def setEnabled (p : Planner) (enabled : Bool) : Planner := { p with enabled }

/-- Forgets all purchases. -/
def reset (p : Planner) : Planner := { p with tally := [], lastTab := none }

/-- The number of purchases at a place. -/
def purchases (p : Planner) (key : TabKey) : Nat := p.tally.count key

/-- Takes note of the tab that is shown. Coming to another tab starts its count anew. -/
def noteTab (p : Planner) (title : String) : Planner :=
  if p.lastTab = some title then p
  else { p with lastTab := some title, tally := p.tally.set (.tab title) 0 }

/-- Whether more may be bought at a place. -/
def isUnderLimit (p : Planner) (key : TabKey) : Bool := p.limit = 0 || p.purchases key < p.limit

/-- The item to buy next among those that are wanted: the first. -/
def next? (p : Planner) (key : TabKey) (wanted : List Listing) : Option Listing :=
  if p.enabled && p.isUnderLimit key then wanted.head? else none

/-- Whether the delay since the last attempt has passed. -/
def isDue (p : Planner) (now : Nat) : Bool := hasPassed p.delay p.lastAttempt now

/-- The planner after an attempt with a given result of the input. -/
def afterAttempt (p : Planner) (key : TabKey) (now : Nat) :
    Except InputError Unit → PurchaseOutcome × Planner
  | .ok () =>
    (.purchased,
      { p with lastAttempt := some now, tally := p.tally.set key (p.purchases key + 1) })
  | .error e => (.failed e, { p with lastAttempt := some now })

/-- Buys an item in a game window, if that is allowed now. -/
def purchase {σ : Type} (p : Planner) (key : TabKey) (l : Listing) (window : Rect) (now : Nat)
    (d : InputDriver σ) (s : σ) : PurchaseOutcome × Planner × σ :=
  if !p.enabled then (.disabled, p, s)
  else if !p.isUnderLimit key then (.limitReached, p, s)
  else if !p.isDue now then (.cooldown, p, s)
  else
    match clickTarget? l.rect window with
    | none => (.outOfReach, p, s)
    | some (x, y) =>
      let (s, result) := controlClick d s x y
      let (outcome, p) := p.afterAttempt key now result
      (outcome, p, s)

end Planner

end ShopLens
