import ShopLens.Proofs.Purchase.Attempts
import ShopLens.Proofs.Tabs.Runs
import ShopLens.Session.Highlight

/-!
# ShopLens.Proofs.Session.Runs

Runs of a session: what the game and the player may do to it, in any order, at any time and with any
window, rule source and input driver. What an operation changes is said once for each of them, in the
first section; every fact that a run keeps is read off there.

New settings replace what there is, and a look at the shop window touches the tabs. Anything else keeps
the records of the tabs and the values that the parts have from the settings (`Session.step_cases`).

So a run without new settings is a run of the tabs (`Session.exists_tabs_run`): the records stay, or
what was found before is out of date (`Session.run_keeps_or_outdates`).
-/

namespace ShopLens

namespace Session

/-- What may happen to a session. The passes over the list of a vendor and over hidden tabs only read
it. -/
inductive Action : Type 1 where
  | applySettings (settings : Settings)
  | noteToggleKey (down : Bool) (now : Nat)
  | loadSources (sources : List RuleSource)
  | reload (load : List RuleEntry → Except RuleError LoadedRules)
  | reconcile (window : Container) (now : Nat)
  | highlightSelected (hover : Option Hover)
  | highlightQuest (window : RewardWindow) (now : Nat) (hover : Option Hover)
  | highlightRitual (window : RewardWindow) (now : Nat) (hover : Option Hover)
  | purchaseNext {σ : Type} (pass : HighlightPass) (window : Rect) (now : Nat)
    (d : InputDriver σ) (state : σ)

/-- The session after something happened. -/
def step (s : Session) : Action → Session
  | .applySettings settings => s.applySettings settings
  | .noteToggleKey down now => (s.noteToggleKey down now).2
  | .loadSources sources => (s.loadSources sources).2
  | .reload load => (s.reload load).2
  | .reconcile window now => s.reconcile window now
  | .highlightSelected hover => (s.highlightSelected hover).2
  | .highlightQuest window now hover => (s.highlightQuest window now hover).2
  | .highlightRitual window now hover => (s.highlightRitual window now hover).2
  | .purchaseNext pass window now d state => (s.purchaseNext pass window now d state).2.1

/-- The session after a run. -/
def run (s : Session) (actions : List Action) : Session := actions.foldl step s

/-! ## what an operation changes -/

section Operations

variable (s : Session)

/-- The toggle key changes what is known of the key, and at most whether items are bought, which it
changes in the settings and in the planner alike. -/
theorem noteToggleKey_cases (down : Bool) (now : Nat) :
    (∃ toggle, (s.noteToggleKey down now).2 = { s with toggle }) ∨
      ∃ autoPurchase toggle, (s.noteToggleKey down now).2 =
        { s with settings := { s.settings with autoPurchase }
                 planner := s.planner.setEnabled autoPurchase
                 toggle } := by
  unfold noteToggleKey
  split
  · exact .inr ⟨_, _, rfl⟩
  · exact .inl ⟨_, rfl⟩

/-- To look for rules again changes nothing, or remembers what was found and loads it. -/
theorem reload_cases (load : List RuleEntry → Except RuleError LoadedRules) :
    (s.reload load).2 = s ∨ ∃ rules sources, (s.reload load).2 =
      ({ s with settings := { s.settings with rules } }.loadSources sources).2 := by
  unfold reload
  split
  · exact .inl rfl
  · exact .inr ⟨_, _, rfl⟩

/-- A pass over the selected tab notes at most that the tab is shown. -/
theorem highlightSelected_cases (hover : Option Hover) :
    (s.highlightSelected hover).2 = s ∨ ∃ title, (s.highlightSelected hover).2 =
      { s with planner := s.planner.noteTab title } := by
  unfold highlightSelected
  split
  · exact .inl rfl
  · split
    · exact .inl rfl
    · exact .inr ⟨_, rfl⟩

/-- A pass over quest rewards changes at most what was last read of them. -/
theorem exists_highlightQuest (window : RewardWindow) (now : Nat) (hover : Option Hover) :
    ∃ quest, (s.highlightQuest window now hover).2 =
      { s with rewards := { s.rewards with quest } } := by
  unfold highlightQuest
  split
  · exact ⟨s.rewards.quest, rfl⟩
  · exact ⟨_, rfl⟩

/-- A pass over ritual rewards changes at most what was last read of them. -/
theorem exists_highlightRitual (window : RewardWindow) (now : Nat) (hover : Option Hover) :
    ∃ ritual, (s.highlightRitual window now hover).2 =
      { s with rewards := { s.rewards with ritual } } := by
  unfold highlightRitual
  split
  · exact ⟨s.rewards.ritual, rfl⟩
  · exact ⟨_, rfl⟩

/-- What a purchase does: nothing, or it tries to buy the next item of the pass, which is current if
the pass is over a tab. -/
theorem purchaseNext_cases {σ : Type} (pass : HighlightPass) (window : Rect) (now : Nat)
    (d : InputDriver σ) (state : σ) :
    s.purchaseNext pass window now d state = (none, s, state) ∨
      ∃ key l, pass.key = some key ∧ pass.next? = some l ∧
        (∀ title, key = .tab title → s.tabs.isCurrent l = true) ∧
        s.purchaseNext pass window now d state =
          (some (s.planner.purchase key l window now d state).1,
            { s with planner := (s.planner.purchase key l window now d state).2.1 },
            (s.planner.purchase key l window now d state).2.2) := by
  unfold purchaseNext
  cases hkey : pass.key with
  | none => exact .inl rfl
  | some key =>
      cases hnext : pass.next? with
      | none => exact .inl rfl
      | some l =>
          cases key with
          | tab title =>
              cases hcurrent : s.tabs.isCurrent l with
              | false => exact .inl (by simp [hcurrent])
              | true => exact .inr ⟨.tab title, l, rfl, rfl, fun _ _ => hcurrent, by simp [hcurrent]⟩
          | offers => exact .inr ⟨.offers, l, rfl, rfl, nofun, rfl⟩
          | buyback => exact .inr ⟨.buyback, l, rfl, rfl, nofun, rfl⟩

end Operations

/-! ## what stays -/

/-- From one session to another all stays that only new settings and looks at the shop window touch. The
settings may tell other rules, and whether items are bought; the planner then tells the same. Another
attempt to buy is made only when it is due. -/
structure Keeps (s t : Session) : Prop where
  tabs_eq : t.tabs = s.tabs
  compiler_eq : t.compiler = s.compiler
  limits_eq : t.limits = s.limits
  interval_eq : t.rewards.interval = s.rewards.interval
  settings_eq : ∃ rules autoPurchase, t.settings = { s.settings with rules, autoPurchase }
  enabled_eq : s.planner.enabled = s.settings.autoPurchase →
    t.planner.enabled = t.settings.autoPurchase
  delay_eq : t.planner.delay = s.planner.delay
  limit_eq : t.planner.limit = s.planner.limit
  lastAttempt_cases : t.planner.lastAttempt = s.planner.lastAttempt ∨
    ∃ now, s.planner.isDue now = true ∧ t.planner.lastAttempt = some now

theorem Keeps.affixLimits_eq {s t : Session} (h : s.Keeps t) :
    t.settings.affixLimits = s.settings.affixLimits := by
  obtain ⟨rules, autoPurchase, heq⟩ := h.settings_eq
  rw [heq]

section Steps

variable (s : Session)

theorem Keeps.refl : s.Keeps s where
  tabs_eq := rfl
  compiler_eq := rfl
  limits_eq := rfl
  interval_eq := rfl
  settings_eq := ⟨s.settings.rules, s.settings.autoPurchase, rfl⟩
  enabled_eq := id
  delay_eq := rfl
  limit_eq := rfl
  lastAttempt_cases := .inl rfl

theorem keeps_noteToggleKey (down : Bool) (now : Nat) : s.Keeps (s.noteToggleKey down now).2 := by
  rcases s.noteToggleKey_cases down now with ⟨toggle, heq⟩ | ⟨autoPurchase, toggle, heq⟩
  · rw [heq]
    exact { Keeps.refl s with }
  · rw [heq]
    exact { Keeps.refl s with
      settings_eq := ⟨s.settings.rules, autoPurchase, rfl⟩
      enabled_eq := fun _ => rfl }

theorem keeps_loadSources (sources : List RuleSource) : s.Keeps (s.loadSources sources).2 :=
  { Keeps.refl s with }

theorem keeps_reload (load : List RuleEntry → Except RuleError LoadedRules) :
    s.Keeps (s.reload load).2 := by
  rcases s.reload_cases load with heq | ⟨rules, sources, heq⟩
  · rw [heq]
    exact .refl s
  · rw [heq]
    exact { Keeps.refl s with settings_eq := ⟨rules, s.settings.autoPurchase, rfl⟩ }

theorem keeps_highlightSelected (hover : Option Hover) : s.Keeps (s.highlightSelected hover).2 := by
  rcases s.highlightSelected_cases hover with heq | ⟨title, heq⟩
  · rw [heq]
    exact .refl s
  · obtain ⟨tally, lastTab, hnote⟩ := s.planner.exists_noteTab title
    rw [heq, hnote]
    exact { Keeps.refl s with }

theorem keeps_highlightQuest (window : RewardWindow) (now : Nat) (hover : Option Hover) :
    s.Keeps (s.highlightQuest window now hover).2 := by
  obtain ⟨quest, heq⟩ := s.exists_highlightQuest window now hover
  rw [heq]
  exact { Keeps.refl s with }

theorem keeps_highlightRitual (window : RewardWindow) (now : Nat) (hover : Option Hover) :
    s.Keeps (s.highlightRitual window now hover).2 := by
  obtain ⟨ritual, heq⟩ := s.exists_highlightRitual window now hover
  rw [heq]
  exact { Keeps.refl s with }

theorem keeps_purchaseNext {σ : Type} (pass : HighlightPass) (window : Rect) (now : Nat)
    (d : InputDriver σ) (state : σ) : s.Keeps (s.purchaseNext pass window now d state).2.1 := by
  rcases s.purchaseNext_cases pass window now d state with heq | ⟨key, l, -, -, -, heq⟩
  · rw [heq]
    exact .refl s
  · obtain ⟨tally, lastAttempt, hpurchase, hlast⟩ :=
      s.planner.exists_purchase key l window now d state
    rw [heq, hpurchase]
    exact { Keeps.refl s with lastAttempt_cases := hlast.imp_right fun h => ⟨now, h⟩ }

@[simp] theorem tabs_highlightSelected (hover : Option Hover) :
    (s.highlightSelected hover).2.tabs = s.tabs := (s.keeps_highlightSelected hover).tabs_eq

/-- Whether something puts other records of the tabs in the place of those there are. -/
def rebuilds : Action → Bool
  | .applySettings _ => true
  | .reconcile window now => s.tabs.rebuilds window now
  | _ => false

/-- Whether something takes over new settings. -/
def Action.isApplySettings : Action → Bool
  | applySettings _ => true
  | _ => false

/-- Whatever happens is new settings, a look at the shop window, or touches neither. -/
theorem step_cases (a : Action) : (∃ settings, a = .applySettings settings) ∨
    (∃ window now, a = .reconcile window now) ∨
    (s.rebuilds a = false ∧ s.Keeps (s.step a)) := by
  cases a with
  | applySettings settings => exact .inl ⟨settings, rfl⟩
  | reconcile window now => exact .inr (.inl ⟨window, now, rfl⟩)
  | noteToggleKey down now => exact .inr (.inr ⟨rfl, s.keeps_noteToggleKey down now⟩)
  | loadSources sources => exact .inr (.inr ⟨rfl, s.keeps_loadSources sources⟩)
  | reload load => exact .inr (.inr ⟨rfl, s.keeps_reload load⟩)
  | highlightSelected hover => exact .inr (.inr ⟨rfl, s.keeps_highlightSelected hover⟩)
  | highlightQuest window now hover =>
      exact .inr (.inr ⟨rfl, s.keeps_highlightQuest window now hover⟩)
  | highlightRitual window now hover =>
      exact .inr (.inr ⟨rfl, s.keeps_highlightRitual window now hover⟩)
  | purchaseNext pass window now d state =>
      exact .inr (.inr ⟨rfl, s.keeps_purchaseNext pass window now d state⟩)

/-- The tabs after something other than new settings: as after a look at the window, or as before. -/
theorem tabs_step {a : Action} (h : a.isApplySettings = false) :
    (∃ window now, a = .reconcile window now ∧
        (s.step a).tabs = s.tabs.reconcile window now) ∨
      (s.rebuilds a = false ∧ (s.step a).tabs = s.tabs) := by
  rcases s.step_cases a with ⟨settings, rfl⟩ | ⟨window, now, rfl⟩ | ⟨hrebuilds, hkeeps⟩
  · contradiction
  · exact .inl ⟨window, now, rfl, rfl⟩
  · exact .inr ⟨hrebuilds, hkeeps.tabs_eq⟩

end Steps

/-! ## over a run -/

/-- No step of a run puts other records of the tabs in the place of those there are. -/
def KeepsRecords : Session → List Action → Prop
  | _, [] => True
  | s, a :: as => s.rebuilds a = false ∧ (s.step a).KeepsRecords as

/-- New settings keep no records. -/
theorem not_keepsRecords_of_applySettings {s : Session} {actions : List Action}
    {a : Action} (ha : a ∈ actions) (h : a.isApplySettings = true) : ¬ s.KeepsRecords actions := by
  induction actions generalizing s with
  | nil => contradiction
  | cons b actions ih =>
      rintro ⟨hb, hkeeps⟩
      rcases List.mem_cons.mp ha with rfl | hmem
      · cases a <;> contradiction
      · exact ih hmem hkeeps

/-- Over a run without new settings the tabs go through a run of their own, which keeps their records
just when the run of the session does. -/
theorem exists_tabs_run {s : Session} {actions : List Action}
    (hactions : ∀ a ∈ actions, a.isApplySettings = false) :
    ∃ events, (s.run actions).tabs = s.tabs.run events ∧
      (s.KeepsRecords actions ↔ s.tabs.KeepsRecords events) := by
  induction actions generalizing s with
  | nil => exact ⟨[], rfl, Iff.rfl⟩
  | cons a actions ih =>
      obtain ⟨events, hrun, hkeeps⟩ :=
        ih (s := s.step a) fun b hb => hactions b (List.mem_cons_of_mem a hb)
      rcases s.tabs_step (hactions a List.mem_cons_self) with ⟨window, now, rfl, heq⟩ | ⟨hr, heq⟩
      · rw [heq] at hrun hkeeps
        exact ⟨.look window now :: events, hrun, and_congr Iff.rfl hkeeps⟩
      · rw [heq] at hrun hkeeps
        exact ⟨events, hrun, (and_iff_right hr).trans hkeeps⟩

/-- **Over a run without new settings** the records and the frame stay as long as nothing puts others
in their place, and everything found before is out of date afterwards. -/
theorem run_keeps_or_outdates {s : Session} {actions : List Action}
    (hactions : ∀ a ∈ actions, a.isApplySettings = false) :
    (s.KeepsRecords actions ∧ (s.run actions).tabs.records = s.tabs.records ∧
        (s.run actions).tabs.frame = s.tabs.frame) ∨
      (s.run actions).tabs.Outdated s.tabs.frame := by
  obtain ⟨events, hrun, hkeeps⟩ := exists_tabs_run (s := s) hactions
  rw [hrun]
  rcases s.tabs.keepsRecords_or_outdated events with hkeeps' | hout
  · exact .inl ⟨hkeeps.mpr hkeeps', TabCache.run_of_keepsRecords hkeeps'⟩
  · exact .inr hout

end Session

end ShopLens
