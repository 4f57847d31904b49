import ShopLens.Fields
import ShopLens.Rect

/-!
# ShopLens.Item

Items as the game describes them, and listings: an item as one pass over a window found it. What is
read from the game may be missing or contradictory at any moment, so such parts are a `Read`.
-/

namespace ShopLens

/-! ## reading from the game -/

/-- Why a part of the game's state could not be read. -/
inductive ReadError where
  | unavailable (what : String)
  | inconsistent (what : String)
deriving DecidableEq, Repr

/-- The wording of a read error. -/
def ReadError.message : ReadError → String
  | unavailable what => what ++ " is unavailable"
  | inconsistent what => "inconsistent host state: " ++ what

/-- A part of the game's state, or why it could not be read. -/
abbrev Read (α : Type) := Except ReadError α

/-- What was read; every failure counts as absence. -/
def Read.present? {α : Type} : Read α → Option α
  | .ok a => some a
  | .error _ => none

@[simp] theorem Read.present?_eq_some_iff {α : Type} {r : Read α} {a : α} :
    r.present? = some a ↔ r = .ok a := by
  cases r <;> simp [present?]

/-- The list that was read, empty after a failure. -/
def Read.orEmpty {α : Type} (r : Read (List α)) : List α := r.present?.getD []

/-! ## items -/

/-- A modifier on an item: its own properties, and its definition if the game resolves it. -/
structure Modifier where
  fields : Fields
  definition : Option Fields

/-- The modifiers of an item. -/
structure Mods where
  fields : Fields
  modifiers : List Modifier

/-- An item as the game describes it. -/
structure Item where
  /-- Its identity, 0 if the game could not resolve it. -/
  address : Nat
  valid : Bool
  path : Option String
  name : String
  /-- The values that the game has under names, found in whatever way it looks for them. -/
  fields : String → Option Value
  tags : Read (List String)
  mods : Read Mods

namespace Item

/-- An item without fields, tags and modifiers. -/
def plain (address : Nat) (path name : String) : Item where
  address
  valid := true
  path := some path
  name
  fields := fun _ => none
  tags := .ok []
  mods := .ok ⟨.empty, []⟩

/-- A ring, known by its identity only. -/
def ring (address : Nat) : Item := plain address "Metadata/Items/Rings/Ring1" "Ring1"

/-- Whether an item is known and resolved. -/
def isLive (i : Item) : Bool := i.address != 0 && i.valid

end Item

/-! ## listings -/

/-- Where a listing comes from. -/
inductive Listing.Kind where
  | shopItem
  | questReward
  | ritualReward
deriving DecidableEq, Repr

/-- The name of a kind, as filters see it. -/
def Listing.Kind.name : Listing.Kind → String
  | shopItem => "ShopItem"
  | questReward => "QuestReward"
  | ritualReward => "RitualReward"

/-- The pass that produced a listing: its number and the tab selected then. -/
structure Stamp where
  frame : Nat
  selection : Option Nat
deriving DecidableEq, Repr

/-- The stamp of listings that belong to no pass over tabs. -/
def Stamp.zero : Stamp := ⟨0, none⟩

/-- An item as one pass found it. -/
structure Listing where
  item : Item
  kind : Listing.Kind
  rect : Rect
  /-- The number of its tab; negative numbers are the lists of a vendor. -/
  tab : Int
  displayed : Bool
  stamp : Stamp

namespace Listing

/-- The tab number of a vendor's own offers. -/
def offersTab : Int := -1

/-- The tab number of the goods a vendor sells back. -/
def buybackTab : Int := -2

/-- The tab number of reward windows, which have a single grid. -/
def rewardTab : Int := 0

/-- An item laid out at `rect`. -/
def shown (item : Item) (kind : Kind) (rect : Rect) (tab : Int) (stamp : Stamp) : Listing :=
  { item, kind, rect, tab, displayed := true, stamp }

/-- An item that the server reports and that is not laid out now. -/
def reported (item : Item) (kind : Kind) (tab : Int) (stamp : Stamp) : Listing :=
  { item, kind, rect := .zero, tab, displayed := false, stamp }

/-- The identity of the item. -/
def address (l : Listing) : Nat := l.item.address

/-- The name of the item. -/
def name (l : Listing) : String := l.item.name

/-- Whether the item is known and resolved. -/
def isLive (l : Listing) : Bool := l.item.isLive

/-- The value of a field in filters. Properties of the listing hide fields of the item that are
spelled exactly like them; an unknown field is null. -/
def field (l : Listing) (name : String) : Value :=
  if name = "Kind" then .str l.kind.name
  else if name = "TabIndex" then .int l.tab
  else if name = "IsDisplayed" then .bool l.displayed
  else if name = "Path" then (l.item.path.map Value.str).getD .null
  else if name = "Name" then .str l.item.name
  else (l.item.fields name).getD .null

/-- Whether two listings are of the same item on the same tab in the same pass. -/
def same (l m : Listing) : Bool := l.address == m.address && l.tab == m.tab && l.stamp == m.stamp

end Listing

end ShopLens
