import ShopLens.Command.Report
import ShopLens.Settings.File

/-!
# ShopLens.Command.ShowSettings

The command that shows where the settings are and what they are.
-/

namespace ShopLens

/-- The greatest number that the listing can show. -/
def maxListed : Nat := 0x7fffffffffffffff

/-- Whether the listing can show all numbers of the settings. -/
def Settings.isListable (s : Settings) : Bool :=
  s.tabRefresh.toNat ≤ maxListed && s.selectionSettle.toNat ≤ maxListed
    && s.rewardRefresh.toNat ≤ maxListed

/-- Shows the settings that were had, in a folder for settings of all programs. -/
def showSettings (home : String) : Except SettingsError Settings → Report
  | .error e => .failure "" e.message
  | .ok s =>
    let places := unlines
      ["settings file: " ++ settingsPath home, "rule folder:   " ++ usualRuleFolder home, ""]
    if s.isListable then .answer (places ++ s.toml) true
    else .failure places "out-of-range value for u64 type"

end ShopLens
