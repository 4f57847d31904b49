import ShopLens.Clock
import ShopLens.Window.Slot

/-!
# ShopLens.Window.Rewards

Windows with quest or ritual rewards. Their content seldom changes, so it is read at most once per
interval while the window stays open.
-/

namespace ShopLens

/-- A window with rewards. -/
structure RewardWindow where
  visible : Bool
  slots : Read (List Slot)

/-- The rewards in a window. -/
def RewardWindow.listings (w : RewardWindow) (kind : Listing.Kind) : List Listing :=
  w.slots.orEmpty.filterMap fun s =>
    s.liveItem?.map (Listing.shown · kind s.rect Listing.rewardTab .zero)

/-- What was last read from a window. -/
structure RewardSnapshot where
  takenAt : Option Nat := none
  items : List Listing := []

/-- The content of a window now, read again if it is time. -/
def RewardSnapshot.update (s : RewardSnapshot) (interval : Nat) (kind : Listing.Kind)
    (w : RewardWindow) (now : Nat) : RewardSnapshot :=
  if !w.visible then {}
  else if hasPassed interval s.takenAt now then ⟨some now, w.listings kind⟩
  else s

/-- The content of both kinds of reward windows. -/
structure RewardCache where
  interval : Nat
  quest : RewardSnapshot := {}
  ritual : RewardSnapshot := {}

namespace RewardCache

/-- Looks at the window with quest rewards. -/
def updateQuest (c : RewardCache) (w : RewardWindow) (now : Nat) : RewardCache :=
  { c with quest := c.quest.update c.interval .questReward w now }

/-- Looks at the window with ritual rewards. -/
def updateRitual (c : RewardCache) (w : RewardWindow) (now : Nat) : RewardCache :=
  { c with ritual := c.ritual.update c.interval .ritualReward w now }

end RewardCache

end ShopLens
