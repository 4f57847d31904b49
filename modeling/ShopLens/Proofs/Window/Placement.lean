import ShopLens.Tabs.Cache
import ShopLens.Window.Rewards
import ShopLens.Window.Vendor

/-!
# ShopLens.Proofs.Window.Placement

Which slots listings are made of. A listing does not know its slot, but it keeps the item and the
rectangle of it, its placement. The tabs, the lists of a vendor and the reward windows are all read in
the same way, slot by slot, and differ only in which slots they take. So the placements of the listings
are those of the slots that were taken, one for each and in the order of the window
(`map_placement_filterMap`), and this is said of each of the three.
-/

namespace ShopLens

/-- What is in a slot, and where. -/
def Slot.placement (slot : Slot) : Option Item × Rect := (slot.item, slot.rect)

/-- The item of a listing, and where it is. -/
def Listing.placement (l : Listing) : Option Item × Rect := (some l.item, l.rect)

@[simp] theorem Listing.placement_shown (item : Item) (kind : Kind) (rect : Rect) (tab : Int)
    (stamp : Stamp) : (shown item kind rect tab stamp).placement = (some item, rect) := rfl

/-- Listings made of the items with some property have the placements of the slots with such items. -/
theorem map_placement_filterMap (p : Item → Bool) (kind : Listing.Kind) (tab : Int) (stamp : Stamp)
    (slots : List Slot) :
    (slots.filterMap fun slot => (slot.item.filter p).map
        (Listing.shown · kind slot.rect tab stamp)).map Listing.placement =
      (slots.filter fun slot => slot.item.any p).map Slot.placement := by
  induction slots with
  | nil => rfl
  | cons slot slots ih =>
      obtain ⟨item, rect, visible⟩ := slot
      cases item with
      | none => simpa using ih
      | some item =>
          cases hp : p item with
          | false => simpa [hp, Option.filter_some] using ih
          | true =>
              simpa [hp, Option.filter_some, Slot.placement] using ih

namespace Tab

/-- A tab displays the known items with a path in the slots that can be seen. -/
theorem map_placement_displayedListings (tab : Tab) (index : Nat) (stamp : Stamp) :
    (tab.displayedListings index stamp).map Listing.placement =
      ((tab.displayed.orEmpty.filter Slot.visible).filter fun slot =>
        slot.item.any Item.isResolved).map Slot.placement :=
  map_placement_filterMap Item.isResolved .shopItem (tabNumber index) stamp _

/-- What the record of a tab displays is in slots that can be seen. -/
theorem sublist_displayedItems (tab : Tab) (id : Nat) (identity : TabIdentity) (stamp : Stamp)
    (settled : Bool) :
    ((tab.record id identity stamp settled).displayedItems.map Listing.placement).Sublist
      ((tab.displayed.orEmpty.filter Slot.visible).map Slot.placement) := by
  unfold record
  dsimp only
  split
  · rw [map_placement_displayedListings]
    exact List.filter_sublist.map _
  · exact List.nil_sublist _

end Tab

/-- The list of a vendor holds the known items in the slots that can be seen within its bounds. -/
theorem map_placement_vendorListings (slots : Read (List Slot)) (bounds : Option Rect) (tab : Int)
    (frame : Nat) :
    (vendorListings slots bounds tab frame).map Listing.placement =
      ((slots.orEmpty.filter fun slot => slot.visible && slot.isWithin bounds).filter fun slot =>
        slot.item.any Item.isLive).map Slot.placement :=
  map_placement_filterMap Item.isLive .shopItem tab ⟨frame, none⟩ _

/-- A reward window holds the known items in all its slots. -/
theorem RewardWindow.map_placement_listings (w : RewardWindow) (kind : Listing.Kind) :
    (w.listings kind).map Listing.placement =
      (w.slots.orEmpty.filter fun slot => slot.item.any Item.isLive).map Slot.placement :=
  map_placement_filterMap Item.isLive kind Listing.rewardTab .zero _

end ShopLens
