import ShopLens.Session.Highlight

/-!
# ShopLens.Session.Hidden

The tabs other than the selected one on which the server reports wanted items, and a short text that
lists them.
-/

namespace ShopLens

/-- A tab that is not selected and holds wanted items. -/
structure HiddenTab where
  index : Nat
  title : String
  header : Option Element
  /-- The color of the outline of its header, if headers are outlined. -/
  headerColor : Option Color
  itemNames : List String
deriving DecidableEq

namespace Session

variable (s : Session)

/-- The color of the outline of the header of a tab. -/
def headerColor (tab : TabRecord) (hover : Option Hover) : Color :=
  let covered := match hover, tab.header with
    | some hover, some header => hover.tooltip.intersects header.rect
    | _, _ => false
  (s.colorOfTab tab.serverItems).dimIf covered

/-- What is shown of a tab that is not selected; nothing if no item on it is wanted. -/
def hiddenTab? (hover : Option Hover) (tab : TabRecord) : Option HiddenTab :=
  let itemNames := (tab.serverItems.filter s.isMatch).map Listing.name
  if itemNames.isEmpty then none
  else
    some
      { index := tab.index
        title := tab.title
        header := tab.header.filter (!·.rect.isInvisible)
        headerColor := if s.settings.outlineHeaders then some (s.headerColor tab hover) else none
        itemNames }

/-- The tabs that are not selected and hold wanted items, by index. -/
def hiddenTabs (hover : Option Hover) : List HiddenTab :=
  if !s.settings.enable then []
  else
    (s.tabs.records.filter fun tab => some tab.index ≠ s.tabs.selection.index).filterMap
      (s.hiddenTab? hover)

end Session

/-- The lines that list hidden tabs: a title, the names of the items set in, and an empty line. -/
def summaryLines (tabs : List HiddenTab) : List String :=
  tabs.flatMap fun tab =>
    ["Tab [" ++ tab.title ++ "]"] ++ tab.itemNames.map ("\t" ++ ·) ++ [""]

end ShopLens
