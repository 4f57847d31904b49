import ShopLens.Proofs.Session.Runs

/-!
# ShopLens.Proofs.Session.Coherence

The settings and the parts of a session that have taken over a value of them. The planner, the limits of
affixes, the tabs and the rewards each keep values of their own, which are read where they act; the
settings are what the player sees. The two agree, and the numbers that have a range are in it
(`Session.Coherent`).

New settings go through `Settings.normalized` and to every part at once. Any other operation writes none
of these values, but for the toggle key, which writes one of them in both places (`Session.Keeps`). So
they agree throughout a run (`Session.settings_in_effect`).
-/

namespace ShopLens

/-! ## ranges -/

section Clamp

variable {α : Type} [LE α] [DecidableLE α] {toNat : α → Nat}

theorem toNat_minOfLe (h : ∀ {a b}, a ≤ b ↔ toNat a ≤ toNat b) (a b : α) :
    toNat (minOfLe.min a b) = min (toNat a) (toNat b) := by
  by_cases hle : a ≤ b
  · rw [Nat.min_eq_left (h.mp hle)]
    exact congrArg toNat (if_pos hle)
  · rw [Nat.min_eq_right (Nat.le_of_not_le (mt h.mpr hle))]
    exact congrArg toNat (if_neg hle)

theorem toNat_maxOfLe (h : ∀ {a b}, a ≤ b ↔ toNat a ≤ toNat b) (a b : α) :
    toNat (maxOfLe.max a b) = max (toNat a) (toNat b) := by
  by_cases hle : a ≤ b
  · rw [Nat.max_eq_right (h.mp hle)]
    exact congrArg toNat (if_pos hle)
  · rw [Nat.max_eq_left (Nat.le_of_not_le (mt h.mpr hle))]
    exact congrArg toNat (if_neg hle)

/-- Words are ordered as their values are, whatever their width, so a word moves into a range as its
value does. -/
theorem toNat_clamp (h : ∀ {a b}, a ≤ b ↔ toNat a ≤ toNat b) (lo hi a : α) :
    toNat (maxOfLe.max lo (minOfLe.min hi a)) = max (toNat lo) (min (toNat hi) (toNat a)) := by
  rw [toNat_maxOfLe h, toNat_minOfLe h]

end Clamp

namespace Settings

/-- The numbers that have a range are in it. -/
def InRange (s : Settings) : Prop :=
  50 ≤ s.purchaseDelay.toNat ∧ s.purchaseDelay.toNat ≤ 1000 ∧
    s.purchaseLimit.toNat ≤ 50 ∧
    1 ≤ s.frameThickness.toNat ∧ s.frameThickness.toNat ≤ 20

theorem inRange_normalized (s : Settings) : s.normalized.InRange := by
  have hdelay : s.normalized.purchaseDelay.toNat = max 50 (min 1000 s.purchaseDelay.toNat) :=
    toNat_clamp UInt32.le_iff_toNat_le 50 1000 s.purchaseDelay
  have hlimit : s.normalized.purchaseLimit.toNat = min 50 s.purchaseLimit.toNat :=
    toNat_minOfLe UInt32.le_iff_toNat_le 50 s.purchaseLimit
  have hthickness : s.normalized.frameThickness.toNat = max 1 (min 20 s.frameThickness.toNat) :=
    toNat_clamp UInt8.le_iff_toNat_le 1 20 s.frameThickness
  unfold InRange
  omega

end Settings

/-! ## agreement -/

namespace Session

/-- Every part of a session acts by the values in the settings, which are in their ranges. -/
structure Coherent (s : Session) : Prop where
  enabled_eq : s.planner.enabled = s.settings.autoPurchase
  delay_eq : s.planner.delay = s.settings.purchaseDelay.toNat
  limit_eq : s.planner.limit = s.settings.purchaseLimit.toNat
  limits_eq : s.limits = s.settings.affixLimits
  refreshInterval_eq : s.tabs.refreshInterval = s.settings.tabRefresh.toNat
  settle_eq : s.tabs.settle = s.settings.selectionSettle.toNat
  interval_eq : s.rewards.interval = s.settings.rewardRefresh.toNat
  inRange : s.settings.InRange

theorem coherent_withCompiler (compiler : Filter.Compiler) (settings : Settings) :
    (withCompiler compiler settings).Coherent :=
  ⟨rfl, rfl, rfl, rfl, rfl, rfl, rfl, settings.inRange_normalized⟩

section Steps

variable {s t : Session}

/-- What stays agrees as before. Of the settings that may change only one is in effect elsewhere, and it
changes there too. -/
theorem Coherent.of_keeps (h : s.Coherent) (hkeeps : s.Keeps t) : t.Coherent := by
  obtain ⟨rules, autoPurchase, hsettings⟩ := hkeeps.settings_eq
  have henabled : t.planner.enabled = t.settings.autoPurchase := hkeeps.enabled_eq h.enabled_eq
  rw [hsettings] at henabled
  constructor <;> rw [hsettings]
  case enabled_eq => exact henabled
  case delay_eq => exact hkeeps.delay_eq.trans h.delay_eq
  case limit_eq => exact hkeeps.limit_eq.trans h.limit_eq
  case limits_eq => exact hkeeps.limits_eq.trans h.limits_eq
  case refreshInterval_eq =>
    rw [hkeeps.tabs_eq]
    exact h.refreshInterval_eq
  case settle_eq =>
    rw [hkeeps.tabs_eq]
    exact h.settle_eq
  case interval_eq => exact hkeeps.interval_eq.trans h.interval_eq
  case inRange => exact h.inRange

/-- New settings need no agreement before. -/
theorem coherent_applySettings (s : Session) (settings : Settings) :
    (s.applySettings settings).Coherent :=
  ⟨rfl, rfl, rfl, rfl, rfl, rfl, rfl, settings.inRange_normalized⟩

theorem coherent_reconcile (h : s.Coherent) (window : Container) (now : Nat) :
    (s.reconcile window now).Coherent :=
  { h with
    refreshInterval_eq := (s.tabs.refreshInterval_reconcile window now).trans h.refreshInterval_eq
    settle_eq := (s.tabs.settle_reconcile window now).trans h.settle_eq }

/-- Whatever happens, the parts go on to agree with the settings. -/
theorem coherent_step (h : s.Coherent) (a : Action) : (s.step a).Coherent := by
  rcases s.step_cases a with ⟨settings, rfl⟩ | ⟨window, now, rfl⟩ | ⟨-, hkeeps⟩
  · exact coherent_applySettings s settings
  · exact coherent_reconcile h window now
  · exact h.of_keeps hkeeps

theorem coherent_run (h : s.Coherent) (actions : List Action) : (s.run actions).Coherent := by
  induction actions generalizing s with
  | nil => exact h
  | cons a actions ih => exact ih (coherent_step h a)

end Steps

/-- **The settings are in effect**: after any run from the start, the planner, the limits of affixes, the
tabs and the rewards have the values of the settings, and the numbers in the settings are in their
ranges. -/
theorem settings_in_effect (compiler : Filter.Compiler) (settings : Settings)
    (actions : List Action) :
    let s := (withCompiler compiler settings).run actions
    s.planner.enabled = s.settings.autoPurchase ∧
      s.planner.delay = s.settings.purchaseDelay.toNat ∧
      s.planner.limit = s.settings.purchaseLimit.toNat ∧
      s.limits = s.settings.affixLimits ∧
      s.tabs.refreshInterval = s.settings.tabRefresh.toNat ∧
      s.tabs.settle = s.settings.selectionSettle.toNat ∧
      s.rewards.interval = s.settings.rewardRefresh.toNat ∧
      (50 ≤ s.settings.purchaseDelay.toNat ∧ s.settings.purchaseDelay.toNat ≤ 1000) ∧
      s.settings.purchaseLimit.toNat ≤ 50 ∧
      1 ≤ s.settings.frameThickness.toNat ∧ s.settings.frameThickness.toNat ≤ 20 := by
  intro s
  have h : s.Coherent := coherent_run (coherent_withCompiler compiler settings) actions
  obtain ⟨hle, hge, hlimit, hthick⟩ := h.inRange
  exact ⟨h.enabled_eq, h.delay_eq, h.limit_eq, h.limits_eq, h.refreshInterval_eq, h.settle_eq,
    h.interval_eq, ⟨hle, hge⟩, hlimit, hthick⟩

end Session

end ShopLens
