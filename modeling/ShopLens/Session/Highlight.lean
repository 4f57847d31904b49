import ShopLens.Session.Basic
import ShopLens.Window.Vendor

/-!
# ShopLens.Session.Highlight

The frames around wanted items: on the selected tab of the shop window, on the list of a vendor and in
reward windows. The item that is bought next has a color of its own, and a frame under the tooltip of
another item is dimmed.
-/

namespace ShopLens

/-- A frame around an item. -/
structure Highlight where
  item : Listing
  rect : Rect
  color : Color
  isNext : Bool

/-- The frames in one window. -/
structure HighlightPass where
  /-- Where purchases from it are counted. -/
  key : Option TabKey := none
  highlights : List Highlight := []

/-- The item in a pass that is bought next. -/
def HighlightPass.next? (p : HighlightPass) : Option Listing :=
  (p.highlights.find? Highlight.isNext).map Highlight.item

/-- The alpha channel of dimmed frames. -/
def dimmedAlpha : UInt8 := 45

/-- A color, dimmed if it is covered. -/
def Color.dimIf (c : Color) (covered : Bool) : Color :=
  if covered then c.withAlpha dimmedAlpha else c

/-- Whether the tooltip of another item covers the frame of an item. -/
def isCovered (hover : Option Hover) (rect : Rect) (address : Nat) : Bool :=
  hover.any (·.covers rect address)

/-- Whether a rectangle is too thin to be seen. -/
def Rect.isInvisible (r : Rect) : Bool := r.isDegenerate 1

namespace Session

variable (s : Session)

/-- The frame around a wanted item; `next` is the address of the item to buy next. -/
def frame (next : Option Nat) (hover : Option Hover) (l : Listing) : Highlight :=
  let isNext := next = some l.address
  let color := if isNext then s.settings.purchaseColor else s.colorOf l
  { item := l, rect := l.rect, color := color.dimIf (isCovered hover l.rect l.address), isNext }

/-- The frames around the wanted ones among some items. -/
def pass (key : TabKey) (items : List Listing) (hover : Option Hover) : HighlightPass :=
  let wanted := items.filter fun l => !l.rect.isInvisible && s.isMatch l
  let next := (s.planner.next? key wanted).map Listing.address
  { key := some key, highlights := wanted.map (s.frame next hover) }

/-- The frames on the selected tab. That the tab is shown is noted for the purchases. -/
def highlightSelected (hover : Option Hover) : HighlightPass × Session :=
  if !s.settings.enable then ({}, s)
  else
    match s.tabs.selected? with
    | none => ({}, s)
    | some tab =>
      let s := { s with planner := s.planner.noteTab tab.title }
      (s.pass (.tab tab.title) (tab.displayedItems.filter s.tabs.isCurrent) hover, s)

/-- The frames on the list of a vendor. -/
def highlightVendor (window : VendorWindow) (hover : Option Hover) : HighlightPass :=
  if !s.settings.enable then {}
  else
    match window.list? s.tabs.frame with
    | none => {}
    | some list => s.pass (if list.isBuyback then .buyback else .offers) list.items hover

/-- The frames around the wanted ones among some rewards. -/
def frameRewards (items : List Listing) (hover : Option Hover) : List Highlight :=
  items.filterMap fun l =>
    (s.rules.firstMatch? s.limits l).map fun binding =>
      { item := l, rect := l.rect, color := binding.color.dimIf (isCovered hover l.rect l.address),
        isNext := false }

/-- The frames in a window with quest rewards. -/
def highlightQuest (window : RewardWindow) (now : Nat) (hover : Option Hover) :
    List Highlight × Session :=
  if !s.settings.enable then ([], s)
  else
    let rewards := s.rewards.updateQuest window now
    (s.frameRewards rewards.quest.items hover, { s with rewards })

/-- The frames in a window with ritual rewards. -/
def highlightRitual (window : RewardWindow) (now : Nat) (hover : Option Hover) :
    List Highlight × Session :=
  if !s.settings.enable then ([], s)
  else
    let rewards := s.rewards.updateRitual window now
    (s.frameRewards rewards.ritual.items hover, { s with rewards })

/-! ## buying -/

/-- Buys the item of a pass that is next. An item on a tab is bought only if it is current; nothing is
tried if there is no such item. -/
def purchaseNext {σ : Type} (pass : HighlightPass) (window : Rect) (now : Nat) (d : InputDriver σ)
    (state : σ) : Option PurchaseOutcome × Session × σ :=
  match pass.key, pass.next? with
  | some key, some l =>
    let isStale := match key with
      | .tab _ => !s.tabs.isCurrent l
      | _ => false
    if isStale then (none, s, state)
    else
      let (outcome, planner, state) := s.planner.purchase key l window now d state
      (some outcome, { s with planner }, state)
  | _, _ => (none, s, state)

end Session

end ShopLens
