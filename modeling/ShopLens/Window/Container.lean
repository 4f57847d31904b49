import ShopLens.Window.Slot

/-!
# ShopLens.Window.Container

The tabs of a shop window, and the hints that the window gives on which of them is selected. One of
the places for tabs may hold the buyback panel.

A `Container` is what the window shows at one moment. Whoever is given one may ask it several times and
gets the same answers: within one call the window does not change.
-/

namespace ShopLens

/-- The stock of the server that a tab shows. -/
structure Inventory where
  address : Nat
  /-- A number that grows with every answer of the server. -/
  requests : Int
deriving DecidableEq, Repr

/-- A tab of a shop window. -/
structure Tab where
  inventory : Read Inventory
  visible : Read Bool
  header : Option Element
  headerSelected : Option Bool
  displayed : Read (List Slot)
  server : Read (List Item)

/-- A shop window. -/
structure Container where
  visible : Bool
  /-- The places for tabs; one that cannot be read still counts. -/
  tabs : List (Option Tab)
  buybackVisible : Option Bool
  /-- The place that the buyback panel takes. -/
  buybackIndex : Option Nat
  shownIndex : Option Int
  shownAddress : Option Nat
  selectedIndex : Option Int

namespace Container

/-- The index `i` if there is a place for a tab and the buyback panel does not take it. -/
def tradeIndex? (c : Container) (i : Int) : Option Nat :=
  if 0 ≤ i ∧ i.toNat < c.tabs.length ∧ c.buybackIndex ≠ some i.toNat then some i.toNat else none

/-- The tabs that can be read, other than the buyback panel, with their indices. -/
def tradeTabs (c : Container) : List (Nat × Tab) :=
  c.tabs.zipIdx.filterMap fun (tab, i) =>
    if c.buybackIndex = some i then none else tab.map (i, ·)

/-- The index of the one tab with a property; nothing if there is none, or more than one. -/
def onlyTab? (c : Container) (p : Tab → Bool) : Option Nat :=
  match c.tradeTabs.filter fun (_, tab) => p tab with
  | [(i, _)] => some i
  | _ => none

/-- The tabs whose stock can be read, with their indices. -/
def stockedTabs (c : Container) : List (Nat × Tab × Inventory) :=
  c.tabs.zipIdx.filterMap fun (tab, i) =>
    match tab with
    | none => none
    | some tab => tab.inventory.present?.map fun inventory => (i, tab, inventory)

end Container

end ShopLens
