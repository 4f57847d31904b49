import Mathlib.Data.List.Induction
import ShopLens.Proofs.Purchase.Limit

/-!
# ShopLens.Proofs.Purchase.Counts

What the numbers of purchases are, said of what happened to a planner and not of its state. The number
at a place starts anew with every reset, and that of a tab also when the tab is shown after another one
(`Planner.Event.restarts`). Since then it counts the attempts at the place that ended as a purchase, and
nothing else (`Planner.purchases_exact`).

Of all that happened before, only the tab that was shown last decides what starts anew; the planner
remembers it (`Planner.lastTab_run`).
-/

namespace ShopLens

namespace Planner

/-! ## runs -/

/-- What may be done with the numbers of purchases. -/
inductive Action : Type 1 where
  | noteTab (title : String)
  | purchase {σ : Type} (key : TabKey) (l : Listing) (window : Rect) (now : Nat) (d : InputDriver σ)
    (state : σ)
  | configure (settings : Settings)
  | setEnabled (enabled : Bool)
  | reset

/-- What there is to see of an action. -/
inductive Event where
  | tabShown (title : String)
  | attempted (key : TabKey) (outcome : PurchaseOutcome)
  /-- Other settings, or buying was switched on or off. -/
  | adjusted
  | reset
deriving DecidableEq

/-- The planner after an action. -/
def step (p : Planner) : Action → Planner
  | .noteTab title => p.noteTab title
  | .purchase key l window now d state => (p.purchase key l window now d state).2.1
  | .configure settings => p.configure settings
  | .setEnabled enabled => p.setEnabled enabled
  | .reset => p.reset

/-- What there is to see of an action of a planner. -/
def event (p : Planner) : Action → Event
  | .noteTab title => .tabShown title
  | .purchase key l window now d state => .attempted key (p.purchase key l window now d state).1
  | .configure _ => .adjusted
  | .setEnabled _ => .adjusted
  | .reset => .reset

/-- The planner after a run. -/
def run (p : Planner) (actions : List Action) : Planner := actions.foldl step p

/-- What there is to see of a run. -/
def history : Planner → List Action → List Event
  | _, [] => []
  | p, a :: actions => p.event a :: (p.step a).history actions

@[simp] theorem run_nil (p : Planner) : p.run [] = p := rfl

@[simp] theorem run_cons (p : Planner) (a : Action) (actions : List Action) :
    p.run (a :: actions) = (p.step a).run actions := rfl

@[simp] theorem run_append (p : Planner) (actions more : List Action) :
    p.run (actions ++ more) = (p.run actions).run more := List.foldl_append

@[simp] theorem history_nil (p : Planner) : p.history [] = [] := rfl

@[simp] theorem history_cons (p : Planner) (a : Action) (actions : List Action) :
    p.history (a :: actions) = p.event a :: (p.step a).history actions := rfl

/-- A part of what was seen at the start of a run is what there is to see of a part of the run. -/
theorem exists_append_of_history {p : Planner} {actions : List Action} {before after : List Event}
    (h : p.history actions = before ++ after) :
    ∃ first rest, actions = first ++ rest ∧ p.history first = before ∧
      (p.run first).history rest = after := by
  induction before generalizing p actions with
  | nil => exact ⟨[], actions, rfl, rfl, h⟩
  | cons e before ih =>
      cases actions with
      | nil => contradiction
      | cons a actions =>
          obtain ⟨he, htail⟩ := List.cons.inj h
          obtain ⟨first, rest, rfl, hbefore, hafter⟩ := ih htail
          refine ⟨a :: first, rest, rfl, ?_, hafter⟩
          rw [history_cons, he, hbefore]

/-! ## where a count starts -/

namespace Event

/-- Whether an event is a purchase at a place. -/
def isPurchaseAt (key : TabKey) : Event → Bool
  | attempted key' outcome => key' = key && outcome = .purchased
  | _ => false

/-- The tab that an event shows. -/
def title? : Event → Option String
  | tabShown title => some title
  | _ => none

/-- The tab that was shown last since the last reset, if there is one. -/
def lastShown (past : List Event) : Option String :=
  (past.reverse.takeWhile (· ≠ .reset)).findSome? title?

/-- Whether the count at a place starts anew with an event, by what was seen before: with a reset, and
that of a tab when it is shown after another one. -/
def restarts (key : TabKey) (past : List Event) : Event → Bool
  | reset => true
  | tabShown title => key = .tab title && lastShown past ≠ some title
  | _ => false

@[simp] theorem lastShown_concat_reset (past : List Event) :
    lastShown (past ++ [reset]) = none := by
  simp [lastShown]

@[simp] theorem lastShown_concat_tabShown (past : List Event) (title : String) :
    lastShown (past ++ [tabShown title]) = some title := by
  rw [lastShown, List.reverse_append]
  rfl

/-- Other events show no tab. -/
theorem lastShown_concat_of_title? {past : List Event} {e : Event} (hreset : e ≠ reset)
    (htitle : e.title? = none) : lastShown (past ++ [e]) = lastShown past := by
  simp [lastShown, hreset, htitle]

end Event

open Event (lastShown)

/-- After some events the count at a place does not start anew with any of those that follow. -/
def Steady (key : TabKey) : List Event → List Event → Prop
  | _, [] => True
  | past, e :: events => e.restarts key past = false ∧ Steady key (past ++ [e]) events

theorem steady_concat {key : TabKey} {past events : List Event} {e : Event} :
    Steady key past (events ++ [e]) ↔
      Steady key past events ∧ e.restarts key (past ++ events) = false := by
  induction events generalizing past with
  | nil => simp [Steady]
  | cons e' events ih => simp [Steady, ih, and_assoc]

/-- The count at a place starts after the events `before`, for the last time: nothing was seen before, or
it starts anew with the last of these events, and with none of the events `after` them. -/
structure LastStart (key : TabKey) (before after : List Event) : Prop where
  starts : before = [] ∨ ∃ earlier e, before = earlier ++ [e] ∧ e.restarts key earlier = true
  steady : Steady key before after

/-- Every count has a last start. -/
theorem exists_lastStart (key : TabKey) (past : List Event) :
    ∃ before after, past = before ++ after ∧ LastStart key before after := by
  induction past using List.reverseRecOn with
  | nil => exact ⟨[], [], rfl, .inl rfl, trivial⟩
  | append_singleton past e ih =>
      cases he : e.restarts key past with
      | true => exact ⟨past ++ [e], [], by simp, .inr ⟨past, e, rfl, he⟩, trivial⟩
      | false =>
          obtain ⟨before, after, rfl, hstart⟩ := ih
          refine ⟨before, after ++ [e], by simp, hstart.starts, ?_⟩
          exact steady_concat.mpr ⟨hstart.steady, he⟩

/-! ## what an action changes -/

section Steps

variable {p : Planner} {past : List Event} {key : TabKey}

/-- The planner remembers the tab that was shown last. -/
theorem lastTab_step (h : p.lastTab = lastShown past) (a : Action) :
    (p.step a).lastTab = lastShown (past ++ [p.event a]) := by
  cases a with
  | noteTab title => simp [step, event]
  | reset => simp [step, event, Planner.reset]
  | purchase key l window now d state =>
      have hsame : (p.step (.purchase key l window now d state)).lastTab = p.lastTab := by simp [step]
      rw [hsame, h]
      exact (Event.lastShown_concat_of_title? (by simp [event]) rfl).symm
  | configure settings => exact h.trans (Event.lastShown_concat_of_title? (by simp [event]) rfl).symm
  | setEnabled enabled => exact h.trans (Event.lastShown_concat_of_title? (by simp [event]) rfl).symm

/-- Over a run, too. -/
theorem lastTab_run (h : p.lastTab = lastShown past) (actions : List Action) :
    (p.run actions).lastTab = lastShown (past ++ p.history actions) := by
  induction actions generalizing p past with
  | nil => simpa using h
  | cons a actions ih =>
      have hstep := ih (lastTab_step h a)
      simpa using hstep

theorem lastTab_run_new (settings : Settings) (actions : List Action) :
    ((new settings).run actions).lastTab = lastShown ((new settings).history actions) := by
  have hstart : (new settings).lastTab = lastShown [] := rfl
  exact lastTab_run hstart actions

/-- **What an action does to a count**: it starts anew, or is one more after a purchase at the place, or
stays. -/
theorem purchases_step (h : p.lastTab = lastShown past) (a : Action) :
    (p.step a).purchases key =
      if (p.event a).restarts key past then 0
      else p.purchases key + if (p.event a).isPurchaseAt key then 1 else 0 := by
  cases a with
  | noteTab title => simp [step, event, Event.restarts, Event.isPurchaseAt, purchases_noteTab, h]
  | reset => simp [step, event, Event.restarts, Planner.reset, purchases, Tally.count]
  | purchase key' l window now d state =>
      simp [step, event, Event.restarts, Event.isPurchaseAt, purchases_purchase]
  | configure settings => rfl
  | setEnabled enabled => rfl

/-- As long as a count does not start anew, it counts the purchases at its place. -/
theorem purchases_run_of_steady (h : p.lastTab = lastShown past) {actions : List Action}
    (hsteady : Steady key past (p.history actions)) :
    (p.run actions).purchases key =
      p.purchases key + (p.history actions).countP (Event.isPurchaseAt key) := by
  induction actions generalizing p past with
  | nil => rfl
  | cons a actions ih =>
      obtain ⟨hrestarts, htail⟩ := hsteady
      have hstep : (p.step a).purchases key = _ := purchases_step h a
      have hrest := ih (lastTab_step h a) htail
      rw [run_cons, hrest, hstep, history_cons, List.countP_cons, hrestarts]
      simp only [Bool.false_eq_true, if_false]
      omega

/-- A count that starts anew with the end of a run is zero there. -/
theorem purchases_run_of_starts {settings : Settings} {actions : List Action}
    (h : (new settings).history actions = [] ∨ ∃ earlier e,
      (new settings).history actions = earlier ++ [e] ∧ e.restarts key earlier = true) :
    ((new settings).run actions).purchases key = 0 := by
  rcases h with hnil | ⟨earlier, e, heq, he⟩
  · cases actions with
    | nil => rfl
    | cons a actions => contradiction
  · obtain ⟨first, rest, rfl, rfl, hlast⟩ := exists_append_of_history heq
    cases rest with
    | nil => contradiction
    | cons a rest =>
        obtain ⟨rfl, htail⟩ := List.cons.inj hlast
        cases rest with
        | cons a' rest => contradiction
        | nil =>
            have hstep : (((new settings).run first).step a).purchases key = _ :=
              purchases_step (lastTab_run_new settings first) a
            rw [run_append, run_cons, run_nil, hstep]
            exact if_pos he

end Steps

/-! ## counts -/

/-- Whether an action is one at a place: a reset is one at every place. -/
def Action.isAt (key : TabKey) : Action → Bool
  | noteTab title => key = .tab title
  | purchase key' _ _ _ _ _ => key' = key
  | reset => true
  | configure _ => false
  | setEnabled _ => false

/-- An action at another place leaves a count. -/
theorem purchases_step_of_not_isAt (p : Planner) {a : Action} {key : TabKey}
    (h : a.isAt key = false) : (p.step a).purchases key = p.purchases key := by
  cases a with
  | noteTab title =>
      have hk : key ≠ .tab title := by simpa [Action.isAt] using h
      simp [step, purchases_noteTab, hk]
  | purchase key' l window now d state =>
      have hk : key' ≠ key := by simpa [Action.isAt] using h
      simp [step, purchases_purchase, hk]
  | reset => contradiction
  | configure settings => rfl
  | setEnabled enabled => rfl

/-- **What the numbers of purchases are.** Whatever was done with a planner, with any input driver, the
number at a place is that of the attempts there which ended as a purchase since the count last started:
with the planner, with a reset, or, at a tab, when the tab was shown after another one. Nothing that is
done at one place changes the number at another. -/
theorem purchases_exact (settings : Settings) (actions : List Action) (key : TabKey) :
    let past := (new settings).history actions
    (∃ before after, past = before ++ after ∧ LastStart key before after) ∧
      (∀ before after, past = before ++ after → LastStart key before after →
        ((new settings).run actions).purchases key = after.countP (Event.isPurchaseAt key)) ∧
      ∀ (p : Planner) (a : Action), a.isAt key = false → (p.step a).purchases key = p.purchases key := by
  intro past
  refine ⟨exists_lastStart key past, ?_, fun p a ha => p.purchases_step_of_not_isAt ha⟩
  intro before after heq hstart
  obtain ⟨first, rest, rfl, rfl, rfl⟩ := exists_append_of_history heq
  have hzero := purchases_run_of_starts hstart.starts
  have hcount := purchases_run_of_steady (lastTab_run_new settings first) hstart.steady
  rw [run_append, hcount, hzero, Nat.zero_add]

/-- A tab is shown, and again after another one. Of the three attempts there one was made before that, and
one fails; so one purchase counts, also after the other tab is shown once more. -/
theorem purchases_of_second_visit :
    let settings : Settings := { autoPurchase := true }
    let key := TabKey.tab "-1-"
    let attempt now stuck := Action.purchase key shelfItem gameWindow now stuckKey stuck
    let actions := [.noteTab "-1-", attempt 0 0, .noteTab "-2-", .noteTab "-1-", attempt 1000 0,
      .noteTab "-1-", attempt 2000 1]
    let before := [.tabShown "-1-", .attempted key .purchased, .tabShown "-2-", .tabShown "-1-"]
    let after := [.attempted key .purchased, .tabShown "-1-", .attempted key (.failed ⟨"stuck"⟩)]
    let p := (new settings).run actions
    (new settings).history actions = before ++ after ∧ LastStart key before after ∧
      p.purchases key = 1 ∧ (Action.noteTab "-2-").isAt key = false ∧
      (p.step (.noteTab "-2-")).purchases key = 1 := by
  intro settings key attempt actions before after p
  have hpast : (new settings).history actions = before ++ after := by decide +kernel
  have hstart : LastStart key before after :=
    ⟨.inr ⟨before.take 3, .tabShown "-1-", rfl, by decide⟩, by decide, by decide, by decide, trivial⟩
  have hat : (Action.noteTab "-2-").isAt key = false := by decide
  obtain ⟨-, hcount, hother⟩ := purchases_exact settings actions key
  have hone : p.purchases key = 1 := hcount before after hpast hstart
  exact ⟨hpast, hstart, hone, hat, (hother p _ hat).trans hone⟩

end Planner

end ShopLens
