import ShopLens.Settings.Basic
import ShopLens.Toml.Write

/-!
# ShopLens.Settings.Encode

Settings as a TOML text. Tables stand behind all other values; without rules there is an empty list
among those values instead.
-/

namespace ShopLens

/-- A color as a list of its channels. -/
def Color.toml (c : Color) : String := Toml.ofItems (c.toList.map fun b => Toml.ofNat b.toNat)

/-- The table of a rule. -/
def RuleEntry.toml (r : RuleEntry) : String :=
  "\n[[rules]]\n"
    ++ Toml.entry "name" (Toml.ofText r.name)
    ++ Toml.entry "location" (Toml.ofText r.location)
    ++ Toml.entry "enabled" (Toml.ofBool r.enabled)
    ++ Toml.entry "color" r.color.toml

/-- The table of the limits of affixes. -/
def AffixLimits.toml (l : AffixLimits) : String :=
  "\n[affix_limits]\n"
    ++ Toml.entry "flask" (Toml.ofNat l.flask.toNat)
    ++ Toml.entry "jewel" (Toml.ofNat l.jewel.toNat)
    ++ Toml.entry "other" (Toml.ofNat l.other.toNat)

/-- The settings as a TOML text. -/
def Settings.toml (s : Settings) : String :=
  Toml.entry "enable" (Toml.ofBool s.enable)
    ++ Toml.entry "draw_on_tab_labels" (Toml.ofBool s.outlineHeaders)
    ++ Toml.entry "default_frame_color" s.frameColor.toml
    ++ Toml.entry "frame_thickness" (Toml.ofNat s.frameThickness.toNat)
    ++ Toml.entry "auto_purchase" (Toml.ofBool s.autoPurchase)
    ++ Toml.entry "purchase_delay_ms" (Toml.ofNat s.purchaseDelay.toNat)
    ++ Toml.entry "max_purchases_per_tab" (Toml.ofNat s.purchaseLimit.toNat)
    ++ Toml.entry "auto_purchase_toggle_key" (Toml.ofText s.toggleKey)
    ++ Toml.entry "auto_purchase_color" s.purchaseColor.toml
    ++ Toml.entry "custom_config_dir" (Toml.ofText s.customFolder)
    ++ (if s.rules.isEmpty then Toml.entry "rules" "[]" else "")
    ++ Toml.entry "tab_refresh_ms" (Toml.ofNat s.tabRefresh.toNat)
    ++ Toml.entry "selection_settle_ms" (Toml.ofNat s.selectionSettle.toNat)
    ++ Toml.entry "reward_refresh_ms" (Toml.ofNat s.rewardRefresh.toNat)
    ++ String.join (s.rules.map RuleEntry.toml)
    ++ s.affixLimits.toml

end ShopLens
