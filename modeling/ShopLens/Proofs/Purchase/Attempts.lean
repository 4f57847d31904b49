import ShopLens.Purchase.Planner

/-!
# ShopLens.Proofs.Purchase.Attempts

What one attempt to buy does. It is idle, and then nothing happens at all, or it drives the input
(`Planner.purchase_cases`). With a driver that answers as another one does, and remembers more, it does
the same (`Planner.purchase_of_mirrors`).

The clicks are counted with a driver that passes everything on to another one and remembers what that
one answers (`InputDriver.watched`): an attempt reports at most one click, and exactly one if it succeeds
(`InputDriver.clicks_controlClick`).
-/

namespace ShopLens

/-! ## counting -/

namespace Tally

variable (t : Tally) (key : TabKey) (n : Nat)

@[simp] theorem count_set : (t.set key n).count key = n := by
  simp [count, set]

theorem lookup_filter_ne {key' : TabKey} (h : key' ≠ key) :
    (t.filter (·.1 ≠ key)).lookup key' = t.lookup key' := by
  induction t with
  | nil => rfl
  | cons e t ih =>
      by_cases hk : e.1 = key
      · have hne : (key' == e.1) = false := beq_false_of_ne (hk ▸ h)
        rw [List.filter_cons_of_neg (by simpa using hk), ih, List.lookup_cons, hne]
      · rw [List.filter_cons_of_pos (by simpa using hk), List.lookup_cons, List.lookup_cons, ih]

/-- Other places keep their numbers. -/
theorem count_set_of_ne {key' : TabKey} (h : key' ≠ key) :
    (t.set key n).count key' = t.count key' := by
  have hne : (key' == key) = false := beq_false_of_ne h
  simp only [count, set, List.lookup_cons, hne]
  rw [lookup_filter_ne t key h]

end Tally

/-! ## attempts -/

namespace Planner

variable {σ : Type} (p : Planner) (key : TabKey) (l : Listing) (window : Rect) (now : Nat)
  (d : InputDriver σ) (s : σ)

variable {p key l window now d s} in
/-- An attempt that may be made clicks. -/
theorem purchase_of_reachable {x y : Float32} (he : p.enabled = true)
    (hl : p.isUnderLimit key = true) (hd : p.isDue now = true)
    (hc : clickTarget? l.rect window = some (x, y)) :
    p.purchase key l window now d s =
      ((p.afterAttempt key now (controlClick d s x y).2).1,
        (p.afterAttempt key now (controlClick d s x y).2).2, (controlClick d s x y).1) := by
  simp [purchase, he, hl, hd, hc]

/-- **What an attempt does**: nothing at all, or it clicks at the place of the item and notes how that
ends. -/
theorem purchase_cases :
    (∃ outcome, (outcome = .disabled ∨ outcome = .limitReached ∨ outcome = .cooldown ∨
        outcome = .outOfReach) ∧ p.purchase key l window now d s = (outcome, p, s)) ∨
      (p.enabled = true ∧ p.isUnderLimit key = true ∧ p.isDue now = true ∧
        ∃ x y, clickTarget? l.rect window = some (x, y) ∧
          p.purchase key l window now d s =
            ((p.afterAttempt key now (controlClick d s x y).2).1,
              (p.afterAttempt key now (controlClick d s x y).2).2, (controlClick d s x y).1)) := by
  by_cases he : p.enabled = true
  · by_cases hl : p.isUnderLimit key = true
    · by_cases hd : p.isDue now = true
      · cases hc : clickTarget? l.rect window with
        | none => exact .inl ⟨.outOfReach, by simp, by simp [purchase, he, hl, hd, hc]⟩
        | some place =>
            exact .inr ⟨he, hl, hd, place.1, place.2, rfl, purchase_of_reachable he hl hd hc⟩
      · exact .inl ⟨.cooldown, by simp, by simp [purchase, he, hl, hd]⟩
    · exact .inl ⟨.limitReached, by simp, by simp [purchase, he, hl]⟩
  · exact .inl ⟨.disabled, by simp, by simp [purchase, he]⟩

/-- An attempt counts as one purchase at its place if it ends as one, and else counts nothing. -/
theorem purchases_purchase (key' : TabKey) :
    (p.purchase key l window now d s).2.1.purchases key' =
      p.purchases key' +
        if key = key' ∧ (p.purchase key l window now d s).1 = .purchased then 1 else 0 := by
  rcases p.purchase_cases key l window now d s with ⟨outcome, hidle, heq⟩ | ⟨-, -, -, x, y, -, heq⟩
  · have hne : outcome ≠ .purchased := by
      rcases hidle with rfl | rfl | rfl | rfl <;> simp
    simp [heq, hne]
  · rw [heq]
    cases (controlClick d s x y).2 with
    | error e => simp [afterAttempt, purchases]
    | ok u =>
        by_cases hk : key = key'
        · subst hk
          simp [afterAttempt, purchases]
        · have hother := Tally.count_set_of_ne p.tally key (p.purchases key + 1) (Ne.symm hk)
          simpa [afterAttempt, purchases, hk] using hother

/-- An attempt changes at most what is counted, and when the last attempt was, if one was due. -/
theorem exists_purchase : ∃ tally lastAttempt,
    (p.purchase key l window now d s).2.1 = { p with tally, lastAttempt } ∧
      (lastAttempt = p.lastAttempt ∨ p.isDue now = true ∧ lastAttempt = some now) := by
  rcases p.purchase_cases key l window now d s with
    ⟨outcome, -, heq⟩ | ⟨-, -, hdue, x, y, -, heq⟩
  · rw [heq]
    exact ⟨p.tally, p.lastAttempt, rfl, .inl rfl⟩
  · rw [heq]
    cases (controlClick d s x y).2 with
    | error e => exact ⟨p.tally, some now, rfl, .inr ⟨hdue, rfl⟩⟩
    | ok u => exact ⟨_, some now, rfl, .inr ⟨hdue, rfl⟩⟩

/-- An attempt leaves the tab that was shown last. -/
@[simp] theorem lastTab_purchase :
    (p.purchase key l window now d s).2.1.lastTab = p.lastTab := by
  obtain ⟨tally, lastAttempt, heq, -⟩ := p.exists_purchase key l window now d s
  rw [heq]

/-! An attempt keeps the limit, and is the last one then. -/

@[simp] theorem limit_afterAttempt (result : Except InputError Unit) :
    (p.afterAttempt key now result).2.limit = p.limit := by
  cases result <;> rfl

@[simp] theorem lastAttempt_afterAttempt (result : Except InputError Unit) :
    (p.afterAttempt key now result).2.lastAttempt = some now := by
  cases result <;> rfl

/-- A look at a tab changes at most what is counted, and the tab that was shown last. -/
theorem exists_noteTab (title : String) :
    ∃ tally lastTab, p.noteTab title = { p with tally, lastTab } := by
  unfold noteTab
  split
  · exact ⟨p.tally, p.lastTab, rfl⟩
  · exact ⟨_, _, rfl⟩

@[simp] theorem lastTab_noteTab (title : String) : (p.noteTab title).lastTab = some title := by
  unfold noteTab
  split
  · assumption
  · rfl

/-- Only the tab that is shown now starts its count anew, and only after another one. -/
theorem purchases_noteTab (title : String) :
    (p.noteTab title).purchases key =
      if key = .tab title ∧ p.lastTab ≠ some title then 0 else p.purchases key := by
  unfold noteTab
  by_cases hlast : p.lastTab = some title
  · simp [hlast]
  · by_cases hk : key = .tab title
    · simp [hlast, hk, purchases]
    · have hother := Tally.count_set_of_ne p.tally (.tab title) 0 hk
      simpa [hlast, hk, purchases] using hother

end Planner

/-! ## drivers that answer alike -/

/-- A driver answers as another one does, if a view of its state is taken for the state of the other. -/
structure InputDriver.Mirrors {σ τ : Type} (d : InputDriver τ) (view : τ → σ) (d₀ : InputDriver σ) :
    Prop where
  act : ∀ t action, d₀.act (view t) action = (view (d.act t action).1, (d.act t action).2)
  settle : ∀ t milliseconds, d₀.settle (view t) milliseconds = view (d.settle t milliseconds)

section Mirrors

variable {σ τ : Type} {d : InputDriver τ} {view : τ → σ} {d₀ : InputDriver σ}

namespace InputDriver.Mirrors

theorem call (h : d.Mirrors view d₀) (t : τ) (c : InputCall) :
    d₀.call (view t) c = (view (d.call t c).1, (d.call t c).2) := by
  cases c with
  | act action => exact h.act t action
  | settle milliseconds => exact congrArg (·, Except.ok ()) (h.settle t milliseconds)

theorem callAll (h : d.Mirrors view d₀) (t : τ) (calls : List InputCall) :
    d₀.callAll (view t) calls = (view (d.callAll t calls).1, (d.callAll t calls).2) := by
  induction calls generalizing t with
  | nil => rfl
  | cons c calls ih =>
      rw [InputDriver.callAll, InputDriver.callAll, h.call]
      cases d.call t c with
      | mk t' answer =>
          cases answer with
          | error e => rfl
          | ok u => exact ih t'

theorem controlClick (h : d.Mirrors view d₀) (t : τ) (x y : Float32) :
    controlClick d₀ (view t) x y =
      (view (ShopLens.controlClick d t x y).1, (ShopLens.controlClick d t x y).2) := by
  simp only [ShopLens.controlClick, h.callAll, h.act]

end InputDriver.Mirrors

/-- An attempt with a driver that answers alike ends alike. -/
theorem Planner.purchase_of_mirrors (h : d.Mirrors view d₀) (p : Planner) (key : TabKey) (l : Listing)
    (window : Rect) (now : Nat) (t : τ) :
    p.purchase key l window now d₀ (view t) =
      ((p.purchase key l window now d t).1, (p.purchase key l window now d t).2.1,
        view (p.purchase key l window now d t).2.2) := by
  obtain he | he := p.enabled.eq_false_or_eq_true.symm
  · simp [purchase, he]
  obtain hl | hl := (p.isUnderLimit key).eq_false_or_eq_true.symm
  · simp [purchase, he, hl]
  obtain hd | hd := (p.isDue now).eq_false_or_eq_true.symm
  · simp [purchase, he, hl, hd]
  cases hc : clickTarget? l.rect window with
  | none => simp [purchase, he, hl, hd, hc]
  | some place =>
      rw [purchase_of_reachable he hl hd hc, purchase_of_reachable he hl hd hc, h.controlClick]

end Mirrors

/-! ## watching the input -/

/-- Nothing fails if neither part does. -/
theorem firstFailure_eq_ok {a b : Except InputError Unit} :
    firstFailure a b = .ok () ↔ a = .ok () ∧ b = .ok () := by
  rcases a with e | u <;> simp [firstFailure]

/-- An action, and whether it was reported done. -/
structure Answer where
  action : InputAction
  done : Bool

/-- Whether a click was reported done. -/
def Answer.isClick (a : Answer) : Bool := a.action = .click && a.done

/-- The number of clicks that were reported done. -/
def clicks (log : List Answer) : Nat := log.countP Answer.isClick

@[simp] theorem clicks_nil : clicks [] = 0 := rfl

/-- Whether a call is a click. -/
def InputCall.isClick : InputCall → Bool
  | .act .click => true
  | _ => false

namespace InputDriver

variable {σ : Type} (d : InputDriver σ)

/-- The same driver, which answers as before, with a list of the actions that were asked for and the
answers. -/
def watched : InputDriver (σ × List Answer) where
  act := fun (s, log) action =>
    let (s, answer) := d.act s action
    ((s, log ++ [⟨action, answer.isOk⟩]), answer)
  settle := fun (s, log) milliseconds => (d.settle s milliseconds, log)

/-- An action other than a click adds no click. -/
theorem clicks_act (s : σ × List Answer) {action : InputAction} (h : action ≠ .click) :
    clicks (d.watched.act s action).1.2 = clicks s.2 := by
  simp [watched, clicks, Answer.isClick, h]

theorem clicks_append_done (log : List Answer) (action : InputAction) :
    clicks (log ++ [⟨action, true⟩]) =
      clicks log + if (InputCall.act action).isClick then 1 else 0 := by
  cases action <;> simp [clicks, Answer.isClick, InputCall.isClick]

/-- Calls report no more clicks than they ask for, and as many if all are done. -/
theorem clicks_callAll (s : σ) (log : List Answer) (calls : List InputCall) :
    clicks (d.watched.callAll (s, log) calls).1.2 ≤
        clicks log + calls.countP InputCall.isClick ∧
      ((d.watched.callAll (s, log) calls).2 = .ok () →
        clicks (d.watched.callAll (s, log) calls).1.2 =
          clicks log + calls.countP InputCall.isClick) := by
  induction calls generalizing s log with
  | nil => simp [callAll]
  | cons c calls ih =>
      cases c with
      | settle milliseconds =>
          rw [List.countP_cons_of_neg (by simp [InputCall.isClick])]
          exact ih (d.settle s milliseconds) log
      | act action =>
          rw [List.countP_cons]
          cases h : d.act s action with
          | mk s' answer =>
              have hcall : d.watched.call (s, log) (.act action) =
                  ((s', log ++ [⟨action, answer.isOk⟩]), answer) := by
                simp [call, watched, h]
              rw [callAll, hcall]
              cases answer with
              | error e => simp [clicks, Answer.isClick, Except.isOk, Except.toBool]
              | ok u =>
                  have hlog := clicks_append_done log action
                  obtain ⟨hle, heq⟩ := ih s' (log ++ [⟨action, true⟩])
                  constructor
                  · exact Nat.le_trans hle (by omega)
                  · intro hok
                    exact (heq hok).trans (by omega)

/-- A click with a control key held reports at most one click, and one if all of it is done. -/
theorem clicks_controlClick (s : σ) (x y : Float32) :
    clicks (controlClick d.watched (s, []) x y).1.2 ≤ 1 ∧
      ((controlClick d.watched (s, []) x y).2 = .ok () →
        clicks (controlClick d.watched (s, []) x y).1.2 = 1) := by
  obtain ⟨hle, heq⟩ := d.clicks_callAll s [] (pressCalls x y)
  have hone : (pressCalls x y).countP InputCall.isClick = 1 := rfl
  have hlog : clicks (controlClick d.watched (s, []) x y).1.2 =
      clicks (d.watched.callAll (s, []) (pressCalls x y)).1.2 := by
    simp only [controlClick]
    rw [clicks_act d _ (by simp), clicks_act d _ (by simp)]
  rw [hlog]
  rw [hone, clicks_nil] at hle heq
  refine ⟨hle, fun hok => heq ?_⟩
  exact (firstFailure_eq_ok.mp hok).1

end InputDriver

end ShopLens
