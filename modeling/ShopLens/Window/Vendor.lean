import ShopLens.Window.Slot

/-!
# ShopLens.Window.Vendor

The window of a vendor shows one of two lists: what the vendor offers, or what was sold to the vendor
and can be bought back. The lists count as tabs with negative numbers.
-/

namespace ShopLens

/-- The window of a vendor. -/
structure VendorWindow where
  visible : Bool
  buybackVisible : Option Bool
  offers : Read (List Slot)
  buyback : Read (List Slot)
  offersBounds : Option Rect
  buybackBounds : Option Rect

/-- The list that a vendor shows. -/
structure VendorList where
  isBuyback : Bool
  tab : Int
  items : List Listing

/-- Whether a slot lies within bounds; bounds that are not known, or have no area, hold every slot. -/
def Slot.isWithin (s : Slot) : Option Rect → Bool
  | some bounds => if bounds.width > 0 && bounds.height > 0 then bounds.contains s.rect else true
  | none => true

/-- The items on a list: those in the slots that can be seen and lie within its bounds. -/
def vendorListings (slots : Read (List Slot)) (bounds : Option Rect) (tab : Int) (frame : Nat) :
    List Listing :=
  (slots.orEmpty.filter fun s => s.visible && s.isWithin bounds).filterMap fun s =>
    s.liveItem?.map (Listing.shown · .shopItem s.rect tab ⟨frame, none⟩)

/-- The list that an open window shows. -/
def VendorWindow.list? (w : VendorWindow) (frame : Nat) : Option VendorList :=
  if !w.visible then none
  else if w.buybackVisible = some true then
    some ⟨true, Listing.buybackTab,
      vendorListings w.buyback w.buybackBounds Listing.buybackTab frame⟩
  else
    some ⟨false, Listing.offersTab, vendorListings w.offers w.offersBounds Listing.offersTab frame⟩

end ShopLens
