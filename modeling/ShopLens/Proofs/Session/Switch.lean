import ShopLens.Proofs.Session.Coherence
import ShopLens.Proofs.Session.Currency
import ShopLens.Session.Hidden

/-!
# ShopLens.Proofs.Session.Switch

The main switch, `Settings.enable`, while it is off. A look at any window finds nothing then, and changes
nothing. A purchase does not ask for the switch, only for what its pass has found:

* a pass finds nothing to buy unless it was taken while the switch was on (`Session.Takes.enable_of_next?`),
  and only new settings turn the switch (`Session.enable_run`);
* a purchase drives the input whenever the planner lets it (`Session.purchaseCalls_ne_nil_iff`).

So with a pass that was taken before the switch was turned off, items are still bought:
`Session.switchedOff_iff` says when.
-/

namespace ShopLens

namespace Session

variable {s t : Session}

/-! ## looks at the windows -/

section Looks

variable (h : s.settings.enable = false)

include h

theorem highlightSelected_of_switchedOff (hover : Option Hover) :
    s.highlightSelected hover = ({}, s) := by
  simp [highlightSelected, h]

theorem highlightVendor_of_switchedOff (window : VendorWindow) (hover : Option Hover) :
    s.highlightVendor window hover = {} := by
  simp [highlightVendor, h]

theorem highlightQuest_of_switchedOff (window : RewardWindow) (now : Nat) (hover : Option Hover) :
    s.highlightQuest window now hover = ([], s) := by
  simp [highlightQuest, h]

theorem highlightRitual_of_switchedOff (window : RewardWindow) (now : Nat) (hover : Option Hover) :
    s.highlightRitual window now hover = ([], s) := by
  simp [highlightRitual, h]

theorem hiddenTabs_of_switchedOff (hover : Option Hover) : s.hiddenTabs hover = [] := by
  simp [hiddenTabs, h]

end Looks

/-! ## passes that can be bought from -/

/-- A pass is taken, over the selected tab, which is noted, or over the list of a vendor. -/
inductive Takes (s : Session) : HighlightPass → Session → Prop
  | selected (hover : Option Hover) :
      s.Takes (s.highlightSelected hover).1 (s.highlightSelected hover).2
  | vendor (window : VendorWindow) (hover : Option Hover) : s.Takes (s.highlightVendor window hover) s

/-- To take a pass changes no settings. -/
theorem Takes.keeps {pass : HighlightPass} (h : s.Takes pass t) : s.Keeps t := by
  cases h with
  | selected hover => exact s.keeps_highlightSelected hover
  | vendor window hover => exact .refl s

/-- A pass with an item to buy was taken while the switch was on. -/
theorem Takes.enable_of_next? {pass : HighlightPass} (h : s.Takes pass t) (hnext : pass.next? ≠ none) :
    s.settings.enable = true := by
  cases hoff : s.settings.enable with
  | true => rfl
  | false =>
      cases h with
      | selected hover =>
          rw [highlightSelected_of_switchedOff hoff] at hnext
          contradiction
      | vendor window hover =>
          rw [highlightVendor_of_switchedOff hoff] at hnext
          contradiction

/-! ## over a run -/

theorem Keeps.enable_eq (h : s.Keeps t) : t.settings.enable = s.settings.enable := by
  obtain ⟨rules, autoPurchase, heq⟩ := h.settings_eq
  rw [heq]

/-- Nothing but new settings turns the switch. -/
theorem enable_step {a : Action} (h : a.isApplySettings = false) :
    (s.step a).settings.enable = s.settings.enable := by
  rcases s.step_cases a with ⟨settings, rfl⟩ | ⟨window, now, rfl⟩ | ⟨-, hkeeps⟩
  · contradiction
  · rfl
  · exact hkeeps.enable_eq

theorem enable_run {actions : List Action} (h : ∀ a ∈ actions, a.isApplySettings = false) :
    (s.run actions).settings.enable = s.settings.enable := by
  induction actions generalizing s with
  | nil => rfl
  | cons a actions ih =>
      obtain ⟨ha, hactions⟩ := List.forall_mem_cons.mp h
      exact (ih hactions).trans (enable_step ha)

/-! ## purchases -/

section Purchases

variable {σ : Type} {pass : HighlightPass} {window : Rect} {now : Nat} {d : InputDriver σ} {state : σ}

/-- The item to buy is handed to the planner, if it is current or not on a tab. -/
theorem purchaseNext_of_next? {key : TabKey} {l : Listing} (hkey : pass.key = some key)
    (hnext : pass.next? = some l) (hcurrent : ∀ title, key = .tab title → s.tabs.isCurrent l = true) :
    (s.purchaseNext pass window now d state).2.2 =
      (s.planner.purchase key l window now d state).2.2 := by
  unfold purchaseNext
  rw [hkey, hnext]
  cases key with
  | tab title => simp [hcurrent title rfl]
  | offers => rfl
  | buyback => rfl

/-- **When a purchase drives the input**: the pass has an item to buy, which is current if it is on a tab,
and the planner lets it be bought now. -/
theorem purchaseCalls_ne_nil_iff :
    s.purchaseCalls pass window now d state ≠ [] ↔
      ∃ key l, pass.key = some key ∧ pass.next? = some l ∧
        (∀ title, key = .tab title → s.tabs.isCurrent l = true) ∧
        s.planner.enabled = true ∧ s.planner.isUnderLimit key = true ∧ s.planner.isDue now = true ∧
        (clickTarget? l.rect window).isSome = true := by
  constructor
  · intro h
    obtain ⟨key, l, _, _, hkey, hnext, hcurrent, hplace, -⟩ := purchaseCalls_ne_nil h
    rw [purchaseCalls, purchaseNext_of_next? hkey hnext hcurrent] at h
    rcases s.planner.purchase_cases key l window now d.recorded (state, []) with
      ⟨_, -, hidle⟩ | ⟨henabled, hunder, hdue, -⟩
    · rw [hidle] at h
      contradiction
    · exact ⟨key, l, hkey, hnext, hcurrent, henabled, hunder, hdue, by rw [hplace]; rfl⟩
  · rintro ⟨key, l, hkey, hnext, hcurrent, henabled, hunder, hdue, hreach⟩ hnil
    obtain ⟨⟨x, y⟩, hplace⟩ := Option.isSome_iff_exists.mp hreach
    have hhead := d.head?_controlClick state x y
    rw [purchaseCalls, purchaseNext_of_next? hkey hnext hcurrent,
      Planner.purchase_of_reachable henabled hunder hdue hplace] at hnil
    rw [hnil] at hhead
    contradiction

/-- **The main switch.** While it is off, a look at any window finds nothing and changes nothing. A pass that
was taken earlier has an item to buy only if the switch was on then, and new settings were taken over
since. But a purchase from such a pass does not ask for the switch: it drives the input just when buying is
on in the settings, the item is current if it is on a tab, and the limit, the delay and its place allow
it. -/
theorem switchedOff_iff {compiler : Filter.Compiler} {settings : Settings} {before after : List Action}
    {s₁ : Session} (hpass : ((withCompiler compiler settings).run before).Takes pass s₁)
    (hoff : (s₁.run after).settings.enable = false) :
    let s := s₁.run after
    (∀ hover, s.highlightSelected hover = ({}, s)) ∧
      (∀ window hover, s.highlightVendor window hover = {}) ∧
      (∀ window now hover, s.highlightQuest window now hover = ([], s)) ∧
      (∀ window now hover, s.highlightRitual window now hover = ([], s)) ∧
      (∀ hover, s.hiddenTabs hover = []) ∧
      (pass.next? ≠ none →
        ((withCompiler compiler settings).run before).settings.enable = true ∧
          ∃ a ∈ after, a.isApplySettings = true) ∧
      ∀ (σ : Type) (window : Rect) (now : Nat) (d : InputDriver σ) (state : σ),
        s.purchaseCalls pass window now d state ≠ [] ↔
          ∃ key l, pass.key = some key ∧ pass.next? = some l ∧
            (∀ title, key = .tab title → s.tabs.isCurrent l = true) ∧
            s.settings.autoPurchase = true ∧ s.planner.isUnderLimit key = true ∧
            s.planner.isDue now = true ∧ (clickTarget? l.rect window).isSome = true := by
  intro s
  refine ⟨highlightSelected_of_switchedOff hoff, highlightVendor_of_switchedOff hoff,
    highlightQuest_of_switchedOff hoff, highlightRitual_of_switchedOff hoff,
    hiddenTabs_of_switchedOff hoff, fun hnext => ?_, ?_⟩
  · have hon := hpass.enable_of_next? hnext
    refine ⟨hon, Classical.byContradiction fun hnone => ?_⟩
    have hsteady : s.settings.enable = s₁.settings.enable :=
      enable_run fun a ha => Bool.eq_false_iff.mpr fun h => hnone ⟨a, ha, h⟩
    rw [hpass.keeps.enable_eq, hon] at hsteady
    exact absurd (hsteady.symm.trans hoff) (by decide)
  · have hcoherent : s.Coherent :=
      coherent_run ((coherent_run (coherent_withCompiler compiler settings) before).of_keeps hpass.keeps)
        after
    rw [← hcoherent.enabled_eq]
    exact fun _ _ _ _ _ => purchaseCalls_ne_nil_iff

end Purchases

/-! ## the list of a vendor -/

/-- A vendor who offers a ring. -/
def ringVendor : VendorWindow where
  visible := true
  buybackVisible := none
  offers := .ok [⟨some (.ring 1), shelfItem.rect, true⟩]
  buyback := .ok []
  offersBounds := none
  buybackBounds := none

/-- A rule that every item matches. -/
def wantAll : Action :=
  .loadSources [⟨{ name := "all", location := "all", enabled := true }, .loaded "true"⟩]

/-- Where buying is switched off with the rest, nothing is bought from the pass before. -/
theorem switchedOff_with_buying :
    let s₀ := (withCompiler Filter.compile eager).run [wantAll]
    let pass := s₀.highlightVendor ringVendor none
    let after := [Action.applySettings { eager with enable := false, autoPurchase := false }]
    s₀.Takes pass s₀ ∧ (s₀.run after).settings.enable = false ∧ pass.next? ≠ none ∧
      s₀.settings.enable = true ∧ (s₀.run after).hiddenTabs none = [] ∧
      (s₀.run after).purchaseCalls pass gameWindow 1000 willing () = [] := by
  intro s₀ pass after
  have hpass : s₀.Takes pass s₀ := .vendor ringVendor none
  have hnext : pass.next? ≠ none := by decide +kernel
  have hoff : (s₀.run after).settings.enable = false := rfl
  obtain ⟨-, -, -, -, hhidden, hearlier, hcalls⟩ := switchedOff_iff hpass hoff
  refine ⟨hpass, hoff, hnext, (hearlier hnext).1, hhidden none, ?_⟩
  refine Classical.byContradiction fun hdrives => ?_
  obtain ⟨key, l, -, -, -, hbuying, -⟩ := (hcalls Unit gameWindow 1000 willing ()).mp hdrives
  contradiction

/-- Where it stays on, the ring is bought. -/
theorem purchase_while_switchedOff :
    let s₀ := (withCompiler Filter.compile eager).run [wantAll]
    let pass := s₀.highlightVendor ringVendor none
    let s := s₀.run [.applySettings { eager with enable := false }]
    s.settings.enable = false ∧ s.purchaseCalls pass gameWindow 1000 willing () ≠ [] :=
  ⟨rfl, by decide +kernel⟩

end Session

end ShopLens
