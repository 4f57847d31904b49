import ShopLens.Document
import ShopLens.Settings.Basic

/-!
# ShopLens.Settings.Decode

Settings from structured data. Parts with unknown names are passed over; a part of the wrong type or
out of range spoils the whole. As in `Document.isRecord`, `exact` forbids lists that are too long.
-/

namespace ShopLens

/-- A color from its four channels. -/
def Color.ofDocument? (exact : Bool) : Document → Option Color
  | .list (r :: g :: b :: a :: rest) => do
    guard (!exact || rest.isEmpty)
    return ⟨← r.uint8?, ← g.uint8?, ← b.uint8?, ← a.uint8?⟩
  | _ => none

/-- A rule to remember; it needs a name and a location. -/
def RuleEntry.ofDocument? (exact : Bool) (d : Document) : Option RuleEntry := do
  guard (d.isRecord exact 4)
  return {
    name := ← (← d.part? "name" 0).text?
    location := ← (← d.part? "location" 1).text?
    enabled := ← d.read "enabled" 2 false Document.bool?
    color := ← d.read "color" 3 .opaqueRed (Color.ofDocument? exact) }

/-- Limits of affixes; those that are left out have their usual values. -/
def AffixLimits.ofDocument? (exact : Bool) (d : Document) : Option AffixLimits := do
  guard (d.isRecord exact 3)
  let usual : AffixLimits := {}
  return {
    flask := ← d.read "flask" 0 usual.flask Document.uint8?
    jewel := ← d.read "jewel" 1 usual.jewel Document.uint8?
    other := ← d.read "other" 2 usual.other Document.uint8? }

/-- Settings; those that are left out stay as they are in `base`. -/
def Settings.ofDocument? (exact : Bool) (base : Settings) (d : Document) : Option Settings := do
  guard (d.isRecord exact 15)
  return {
    enable := ← d.read "enable" 0 base.enable Document.bool?
    outlineHeaders := ← d.read "draw_on_tab_labels" 1 base.outlineHeaders Document.bool?
    frameColor := ← d.read "default_frame_color" 2 base.frameColor (Color.ofDocument? exact)
    frameThickness := ← d.read "frame_thickness" 3 base.frameThickness Document.uint8?
    autoPurchase := ← d.read "auto_purchase" 4 base.autoPurchase Document.bool?
    purchaseDelay := ← d.read "purchase_delay_ms" 5 base.purchaseDelay Document.uint32?
    purchaseLimit := ← d.read "max_purchases_per_tab" 6 base.purchaseLimit Document.uint32?
    toggleKey := ← d.read "auto_purchase_toggle_key" 7 base.toggleKey Document.text?
    purchaseColor := ← d.read "auto_purchase_color" 8 base.purchaseColor (Color.ofDocument? exact)
    customFolder := ← d.read "custom_config_dir" 9 base.customFolder Document.text?
    rules := ← d.read "rules" 10 base.rules (Document.list? (RuleEntry.ofDocument? exact))
    affixLimits := ← d.read "affix_limits" 11 base.affixLimits (AffixLimits.ofDocument? exact)
    tabRefresh := ← d.read "tab_refresh_ms" 12 base.tabRefresh Document.uint64?
    selectionSettle := ← d.read "selection_settle_ms" 13 base.selectionSettle Document.uint64?
    rewardRefresh := ← d.read "reward_refresh_ms" 14 base.rewardRefresh Document.uint64? }

end ShopLens
