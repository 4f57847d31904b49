import ShopLens.Tabs.Selection

/-!
# ShopLens.Tabs.Cache

Records of the tabs of a shop window. The selection is looked for on every call, while the records
are built anew only after an interval; each time is a frame with a number of its own.

* Items carry the stamp of their frame and of the selection then. An item is current as long as both
  still hold; so what was found before a change of tabs is not acted on.
* A tab keeps its record number as long as its index and its stock stay the same.
* Only the selected tab has displayed items, and only once the selection is settled.
* A closed window has no records.

One call of `TabCache.reconcile` sees one `Container`: whether the window is open, which tab is selected
and what the tabs hold are all read from the window as it is at that moment.
-/

namespace ShopLens

/-- The title of the tab at an index. -/
def tabTitle (index : Nat) : String := "-" ++ toString (index + 1) ++ "-"

/-- The number of the tab at an index, of 32 bits. -/
def tabNumber (index : Nat) : Int := Int.bmod index 0x100000000

/-- What makes a tab the same in two frames. -/
structure TabIdentity where
  index : Nat
  title : String
  inventory : Inventory
deriving DecidableEq, Repr

/-- What is known of a tab. -/
structure TabRecord where
  id : Nat
  identity : TabIdentity
  visible : Bool
  header : Option Element
  serverItems : List Listing
  displayedItems : List Listing

namespace TabRecord

/-- The index of the tab. -/
def index (r : TabRecord) : Nat := r.identity.index

/-- The title of the tab. -/
def title (r : TabRecord) : String := r.identity.title

end TabRecord

/-! ## building records -/

/-- Whether an item is known and has a path. -/
def Item.isResolved (i : Item) : Bool := i.isLive && i.path.isSome

namespace Tab

/-- The items that the server reports for a tab. -/
def serverListings (t : Tab) (index : Nat) (stamp : Stamp) : List Listing :=
  (t.server.orEmpty.filter Item.isResolved).map
    (Listing.reported · .shopItem (tabNumber index) stamp)

/-- The items that can be seen in a tab. -/
def displayedListings (t : Tab) (index : Nat) (stamp : Stamp) : List Listing :=
  (t.displayed.orEmpty.filter Slot.visible).filterMap fun slot =>
    (slot.item.filter Item.isResolved).map
      (Listing.shown · .shopItem slot.rect (tabNumber index) stamp)

/-- The record of a tab in the frame with a stamp; `settled` tells whether the selection is. -/
def record (t : Tab) (id : Nat) (identity : TabIdentity) (stamp : Stamp) (settled : Bool) :
    TabRecord where
  id
  identity
  visible := t.visible.present?.getD false
  header := t.header
  serverItems := t.serverListings identity.index stamp
  displayedItems :=
    if settled ∧ stamp.selection = some identity.index then
      t.displayedListings identity.index stamp
    else []

end Tab

/-- The number of the record that a tab had. -/
def priorId? (previous : List TabRecord) (identity : TabIdentity) : Option Nat :=
  (previous.find? (·.identity = identity)).map TabRecord.id

/-- The records of tabs, and the next free number. A tab without a record before gets a new number. The
tabs have different indices, so no two of them find the same record. -/
def recordsOf (previous : List TabRecord) (stamp : Stamp) (settled : Bool) (nextId : Nat) :
    List (Nat × Tab × Inventory) → List TabRecord × Nat
  | [] => ([], nextId)
  | (index, tab, inventory) :: rest =>
    let identity : TabIdentity := ⟨index, tabTitle index, inventory⟩
    match priorId? previous identity with
    | some id =>
      let (records, next) := recordsOf previous stamp settled nextId rest
      (tab.record id identity stamp settled :: records, next)
    | none =>
      let (records, next) := recordsOf previous stamp settled (nextId + 1) rest
      (tab.record nextId identity stamp settled :: records, next)

/-! ## the cache -/

/-- The records of the tabs. -/
structure TabCache where
  records : List TabRecord
  selection : SelectionState
  frame : Nat
  nextId : Nat
  /-- When the records were built, unless they must be built anew. -/
  lastRefresh : Option Nat
  refreshInterval : Nat
  settle : Nat

namespace TabCache

/-- The cache before the first frame. -/
def new (refreshInterval settle : Nat) : TabCache :=
  { records := [], selection := {}, frame := 0, nextId := 1, lastRefresh := none,
    refreshInterval, settle }

/-- The stamp of the last frame under the selection of now. -/
def stamp (c : TabCache) : Stamp := ⟨c.frame, c.selection.index⟩

/-- Whether an item was found in the last frame, under the selection of now. -/
def isCurrent (c : TabCache) (l : Listing) : Bool := l.stamp = c.stamp

/-- The record of the selected tab. -/
def selected? (c : TabCache) : Option TabRecord :=
  c.selection.index.bind fun index => c.records.find? (·.index == index)

/-- Has the records built anew at the next occasion. -/
def invalidate (c : TabCache) : TabCache := { c with lastRefresh := none }

/-- Forgets the records. -/
def clear (c : TabCache) : TabCache := { c with records := [], lastRefresh := none }

/-- Builds the records anew. -/
def refresh (c : TabCache) (window : Container) (now : Nat) : TabCache :=
  let stamp : Stamp := ⟨c.frame + 1, c.selection.index⟩
  let settled := c.selection.isSettled c.settle now
  let (records, nextId) := recordsOf c.records stamp settled c.nextId window.stockedTabs
  { c with records, nextId, frame := c.frame + 1, lastRefresh := some now }

/-- Looks at the window: notes the selection, and builds the records anew if it is time. -/
def reconcile (c : TabCache) (window : Container) (now : Nat) : TabCache :=
  let c := { c with selection := c.selection.update window.selection now }
  if !window.visible then c.clear
  else if hasPassed c.refreshInterval c.lastRefresh now then c.refresh window now
  else c

end TabCache

end ShopLens
