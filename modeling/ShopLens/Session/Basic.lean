import ShopLens.Purchase.Planner
import ShopLens.Purchase.Toggle
import ShopLens.Rule.Folder
import ShopLens.Rule.Match
import ShopLens.Tabs.Cache
import ShopLens.Window.Rewards

/-!
# ShopLens.Session.Basic

All that is remembered while the player plays: the settings, the rules, the tabs, the rewards and the
purchases. New settings take effect on all of them at once, except that rules are found and compiled
again only by `reload`.
-/

namespace ShopLens

open ShopLens.Filter (Compiler FilterError)
open ShopLens.Rule (prepare)

/-- All that is remembered. -/
structure Session where
  settings : Settings
  compiler : Compiler
  rules : RuleSet
  limits : AffixLimits
  tabs : TabCache
  rewards : RewardCache
  planner : Planner
  toggle : Toggle

namespace Session

/-! ## settings -/

/-- The tabs before the first look, under some settings. -/
def newTabs (s : Settings) : TabCache := .new s.tabRefresh.toNat s.selectionSettle.toNat

/-- The rewards before the first look, under some settings. -/
def newRewards (s : Settings) : RewardCache := { interval := s.rewardRefresh.toNat }

/-- A session at its start, with any compiler. -/
def withCompiler (compiler : Compiler) (settings : Settings) : Session :=
  let settings := settings.normalized
  { settings, compiler, rules := .empty, limits := settings.affixLimits, tabs := newTabs settings,
    rewards := newRewards settings, planner := .new settings, toggle := {} }

/-- A session at its start. -/
def new (settings : Settings) : Session := withCompiler Filter.compile settings

/-- Takes over settings. What is known of tabs and rewards is forgotten, purchases stay counted. -/
def applySettings (s : Session) (settings : Settings) : Session :=
  let settings := settings.normalized
  { s with
    settings
    limits := settings.affixLimits
    tabs := newTabs settings
    rewards := newRewards settings
    planner := s.planner.configure settings }

/-- Takes note of the toggle key. If it acts, buying is switched on or off, and the answer is whether
it is on now. -/
def noteToggleKey (s : Session) (down : Bool) (now : Nat) : Option Bool × Session :=
  if s.toggle.fires down now then
    let enabled := !s.settings.autoPurchase
    (some enabled,
      { s with
        settings := { s.settings with autoPurchase := enabled }
        planner := s.planner.setEnabled enabled
        toggle := s.toggle.update down now })
  else (none, { s with toggle := s.toggle.update down now })

/-! ## rules -/

/-- Puts rules in place of those before, and starts counting purchases anew. -/
def loadSources (s : Session) (sources : List RuleSource) : List RuleError × Session :=
  let compiled := compileRules s.compiler sources
  (compiled.errors, { s with rules := compiled.set, planner := s.planner.reset })

/-- Looks for rules again. What was found is remembered in the settings; if nothing can be looked for,
all stays as it is. -/
def reload (s : Session) (load : List RuleEntry → Except RuleError LoadedRules) :
    Except RuleError (List RuleError) × Session :=
  match load s.settings.rules with
  | .error e => (.error e, s)
  | .ok loaded =>
    let s := { s with settings := { s.settings with rules := loaded.entries } }
    let (errors, s) := s.loadSources loaded.sources
    (.ok (loaded.errors ++ errors), s)

/-! ## matching -/

/-- Whether a rule matches an item. -/
def isMatch (s : Session) (l : Listing) : Bool := s.rules.isMatch s.limits l

/-- The color for an item. -/
def colorOf (s : Session) (l : Listing) : Color :=
  s.rules.colorOf s.limits s.settings.frameColor l

/-- The color for a tab with some items. -/
def colorOfTab (s : Session) (ls : List Listing) : Color :=
  s.rules.colorOfAny s.limits s.settings.frameColor ls

/-- Tries a rule text on an item, without regard to the open affixes that it asks for. -/
def tryText (s : Session) (text : String) (l : Listing) : Except FilterError Bool :=
  match s.compiler (prepare text).expression with
  | .error e => .error e
  | .ok predicate => predicate s.limits l

/-! ## the shop window -/

/-- Looks at the shop window. -/
def reconcile (s : Session) (window : Container) (now : Nat) : Session :=
  { s with tabs := s.tabs.reconcile window now }

end Session

end ShopLens
