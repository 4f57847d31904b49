import ShopLens.Proofs.Session.Coherence
import ShopLens.Proofs.Session.Currency

/-!
# ShopLens.Proofs.Session.Pace

How far apart purchases are. Throughout a run the delay of the planner is that of the settings, which is
at least 50 milliseconds (`Session.Paced`). A purchase that drives the input is due, so it is later than
the attempt before it; a clock that was set back shows that no time has passed, and a delay that is not
zero is then not over. So the time of the last attempt never goes back, whatever the clock does
(`Session.attemptedSince_run`).

Two purchases that drive the input are therefore at least the delay apart that is set at the later one
(`Session.purchases_spaced`).
-/

namespace ShopLens

namespace Session

variable {s t : Session} {u : Nat}

/-! ## what a purchase does -/

/-- From one session to another a purchase was due, and it was tried. -/
structure Attempts (s t : Session) (now : Nat) : Prop where
  isDue : s.planner.isDue now = true
  lastAttempt_eq : t.planner.lastAttempt = some now

section Purchases

variable (s : Session)

/-- A purchase with a driver that answers alike ends alike. -/
theorem purchaseNext_of_mirrors {σ τ : Type} {d : InputDriver τ} {view : τ → σ} {d₀ : InputDriver σ}
    (h : d.Mirrors view d₀) (pass : HighlightPass) (window : Rect) (now : Nat) (state : τ) :
    s.purchaseNext pass window now d₀ (view state) =
      ((s.purchaseNext pass window now d state).1, (s.purchaseNext pass window now d state).2.1,
        view (s.purchaseNext pass window now d state).2.2) := by
  unfold purchaseNext
  cases pass.key with
  | none => rfl
  | some key =>
      cases pass.next? with
      | none => rfl
      | some l =>
          simp only [Planner.purchase_of_mirrors h]
          cases key with
          | tab title => cases s.tabs.isCurrent l <;> rfl
          | offers => rfl
          | buyback => rfl

/-- **What a purchase does to the pace**: it drives no input and is no attempt, or it was due and was
tried. -/
theorem purchaseNext_pace_cases {σ : Type} (pass : HighlightPass) (window : Rect) (now : Nat)
    (d : InputDriver σ) (state : σ) :
    s.purchaseCalls pass window now d state = [] ∧
        (s.purchaseNext pass window now d state).2.1.planner.lastAttempt = s.planner.lastAttempt ∨
      s.Attempts (s.purchaseNext pass window now d state).2.1 now := by
  rw [s.purchaseNext_of_mirrors d.mirrors_recorded pass window now (state, []), purchaseCalls]
  rcases s.purchaseNext_cases pass window now d.recorded (state, []) with heq | ⟨key, l, -, -, -, heq⟩
  · rw [heq]
    exact .inl ⟨rfl, rfl⟩
  · rw [heq]
    rcases s.planner.purchase_cases key l window now d.recorded (state, []) with
      ⟨outcome, -, hidle⟩ | ⟨-, -, hdue, x, y, -, hdrive⟩
    · rw [hidle]
      exact .inl ⟨rfl, rfl⟩
    · rw [hdrive]
      exact .inr ⟨hdue, by simp⟩

end Purchases

/-! ## over a run -/

/-- The planner has the delay of the settings, which is at least 50 milliseconds. -/
structure Paced (s : Session) : Prop where
  delay_eq : s.planner.delay = s.settings.purchaseDelay.toNat
  le_delay : 50 ≤ s.settings.purchaseDelay.toNat

theorem paced_withCompiler (compiler : Filter.Compiler) (settings : Settings) :
    (withCompiler compiler settings).Paced := ⟨rfl, settings.inRange_normalized.1⟩

theorem Paced.of_keeps (h : s.Paced) (hkeeps : s.Keeps t) : t.Paced := by
  obtain ⟨rules, autoPurchase, hsettings⟩ := hkeeps.settings_eq
  constructor <;> rw [hsettings]
  · exact hkeeps.delay_eq.trans h.delay_eq
  · exact h.le_delay

theorem paced_step (h : s.Paced) (a : Action) : (s.step a).Paced := by
  rcases s.step_cases a with ⟨settings, rfl⟩ | ⟨window, now, rfl⟩ | ⟨-, hkeeps⟩
  · exact ⟨rfl, settings.inRange_normalized.1⟩
  · exact ⟨h.delay_eq, h.le_delay⟩
  · exact h.of_keeps hkeeps

theorem paced_run (h : s.Paced) (actions : List Action) : (s.run actions).Paced := by
  induction actions generalizing s with
  | nil => exact h
  | cons a actions ih => exact ih (paced_step h a)

/-- The last attempt to buy was at some moment or after it. -/
def AttemptedSince (s : Session) (u : Nat) : Prop :=
  ∃ last, s.planner.lastAttempt = some last ∧ u ≤ last

/-- A purchase that is due comes after the last attempt by the delay. -/
theorem AttemptedSince.add_delay_le (h : s.AttemptedSince u) (hpaced : s.Paced) {now : Nat}
    (hdue : s.planner.isDue now = true) : u + s.settings.purchaseDelay.toNat ≤ now := by
  obtain ⟨last, hlast, hle⟩ := h
  have hdelay := hpaced.le_delay
  rw [Planner.isDue, hlast, hasPassed_some, decide_eq_true_eq, hpaced.delay_eq] at hdue
  omega

theorem attemptedSince_step (h : s.AttemptedSince u) (hpaced : s.Paced) (a : Action) :
    (s.step a).AttemptedSince u := by
  rcases s.step_cases a with ⟨settings, rfl⟩ | ⟨window, now, rfl⟩ | ⟨-, hkeeps⟩
  · exact h
  · exact h
  · rcases hkeeps.lastAttempt_cases with heq | ⟨now, hdue, heq⟩
    · obtain ⟨last, hlast, hle⟩ := h
      exact ⟨last, heq.trans hlast, hle⟩
    · have hle := h.add_delay_le hpaced hdue
      exact ⟨now, heq, Nat.le_of_add_right_le hle⟩

theorem attemptedSince_run (h : s.AttemptedSince u) (hpaced : s.Paced) (actions : List Action) :
    (s.run actions).AttemptedSince u := by
  induction actions generalizing s with
  | nil => exact h
  | cons a actions ih => exact ih (attemptedSince_step h hpaced a) (paced_step hpaced a)

/-- **The pace of purchases**: whatever happens in between, and whatever the clock shows then, a purchase
that drives the input comes after any earlier one that did, by at least the delay that is set at the
later one, which is at least 50 milliseconds. -/
theorem purchases_spaced (compiler : Filter.Compiler) (settings : Settings)
    (before between : List Action) {σ τ : Type} {pass pass' : HighlightPass} {window window' : Rect}
    {u t : Nat} {d : InputDriver σ} {d' : InputDriver τ} {state : σ} {state' : τ} :
    let s := (withCompiler compiler settings).run before
    let s' := s.run (.purchaseNext pass window u d state :: between)
    s.purchaseCalls pass window u d state ≠ [] → s'.purchaseCalls pass' window' t d' state' ≠ [] →
      u + s'.settings.purchaseDelay.toNat ≤ t ∧ u + 50 ≤ t := by
  intro s s' hearlier hlater
  have hs : s.Paced := paced_run (paced_withCompiler compiler settings) before
  have hs' : s'.Paced := paced_run hs (.purchaseNext pass window u d state :: between)
  rcases s.purchaseNext_pace_cases pass window u d state with ⟨hidle, -⟩ | hattempts
  · contradiction
  rcases s'.purchaseNext_pace_cases pass' window' t d' state' with ⟨hidle, -⟩ | hattempts'
  · contradiction
  have hstep : (s.step (.purchaseNext pass window u d state)).AttemptedSince u :=
    ⟨u, hattempts.lastAttempt_eq, Nat.le_refl u⟩
  have hsince : s'.AttemptedSince u := attemptedSince_run hstep (paced_step hs _) between
  have hle := hsince.add_delay_le hs' hattempts'.isDue
  exact ⟨hle, Nat.le_trans (Nat.add_le_add_left hs'.le_delay u) hle⟩

/-- A pass over the offers of a vendor with one item on it. -/
def offersPass : HighlightPass where
  key := some .offers
  highlights := [⟨shelfItem, shelfItem.rect, .lime, true⟩]

/-- A clock that is set back between two purchases, and a delay that is set too short. -/
theorem purchases_spaced_of_clock_set_back :
    let between := [Action.purchaseNext offersPass gameWindow 3 willing (),
      .applySettings { eager with purchaseDelay := 5 }, .reconcile (shopWindow 1 0) 7]
    let s := (withCompiler Filter.compile eager).run []
    let s' := s.run (.purchaseNext offersPass gameWindow 1000 willing () :: between)
    s.purchaseCalls offersPass gameWindow 1000 willing () ≠ [] ∧
      s'.purchaseCalls offersPass gameWindow 1050 willing () ≠ [] ∧
      1000 + s'.settings.purchaseDelay.toNat ≤ 1050 ∧ 1000 + 50 ≤ 1050 := by
  intro between s s'
  have hearlier : s.purchaseCalls offersPass gameWindow 1000 willing () ≠ [] := by decide +kernel
  have hlater : s'.purchaseCalls offersPass gameWindow 1050 willing () ≠ [] := by decide +kernel
  exact ⟨hearlier, hlater, purchases_spaced Filter.compile eager [] between hearlier hlater⟩

end Session

end ShopLens
