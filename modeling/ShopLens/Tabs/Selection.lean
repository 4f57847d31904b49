import ShopLens.Clock
import ShopLens.Window.Container

/-!
# ShopLens.Tabs.Selection

Which tab of a shop window is selected. No signal of the window can be relied on alone, so they are
asked from the most to the least specific, and the first that gives a tab decides. An open buyback
panel decides before them that no tab is selected.

The outcome is remembered with the time of its last change: a selection is settled once it has not
changed for some time.
-/

namespace ShopLens

/-! ## one look -/

/-- What decided on the selected tab. -/
inductive SelectionReason where
  | buybackVisible
  | shownIndex
  | shownAddress
  | headerSelected
  | gridVisible
  | selectedIndex
  /-- Nothing. -/
  | exhausted
  | noWindow
deriving DecidableEq, Repr

/-- The wording of a reason. -/
def SelectionReason.message : SelectionReason → String
  | buybackVisible => "buyback panel visible"
  | shownIndex => "container visible stash index"
  | shownAddress => "container visible stash identity"
  | headerSelected => "single selected tab header"
  | gridVisible => "single visible tab inventory"
  | selectedIndex => "container selected index"
  | exhausted => "no conclusive signal"
  | noWindow => "no purchase window"

/-- The selected tab, and what decided on it. -/
structure Selection where
  index : Option Nat
  reason : SelectionReason
deriving DecidableEq, Repr

namespace Container

/-- The tab whose stock has the address that the window gives. -/
def shownTab? (c : Container) : Option Nat :=
  match c.shownAddress with
  | none => none
  | some address =>
    if address = 0 then none
    else c.onlyTab? fun tab => tab.inventory.present?.any (·.address == address)

/-- The signals for a selected tab, from the most to the least specific. -/
def signals : List (SelectionReason × (Container → Option Nat)) :=
  [(.shownIndex, fun c => c.shownIndex.bind c.tradeIndex?),
    (.shownAddress, shownTab?),
    (.headerSelected, fun c => c.onlyTab? (·.headerSelected == some true)),
    (.gridVisible, fun c => c.onlyTab? fun tab => tab.visible.present? == some true),
    (.selectedIndex, fun c => c.selectedIndex.bind c.tradeIndex?)]

/-- The selected tab of a shop window. -/
def selection (c : Container) : Selection :=
  if !c.visible then ⟨none, .noWindow⟩
  else if c.buybackVisible = some true then ⟨none, .buybackVisible⟩
  else
    match signals.findSome? fun (reason, signal) => (signal c).map (·, reason) with
    | some (index, reason) => ⟨some index, reason⟩
    | none => ⟨none, .exhausted⟩

end Container

/-! ## over time -/

/-- The last selection, and since when it stands. -/
structure SelectionState where
  last : Selection := ⟨none, .noWindow⟩
  changedAt : Option Nat := none
  resolvedAt : Option Nat := none
deriving DecidableEq, Repr

namespace SelectionState

/-- The index of the selected tab. -/
def index (st : SelectionState) : Option Nat := st.last.index

/-- Whether a selection has another index than the last one. -/
def isChangedBy (st : SelectionState) (s : Selection) : Bool := s.index ≠ st.index

/-- Takes note of a selection. -/
def update (st : SelectionState) (s : Selection) (now : Nat) : SelectionState where
  last := s
  changedAt := if st.isChangedBy s then some now else st.changedAt
  resolvedAt := some now

/-- Whether the selection has not changed for as long as `settle`. -/
def isSettled (st : SelectionState) (settle now : Nat) : Bool := hasPassed settle st.changedAt now

end SelectionState

end ShopLens
