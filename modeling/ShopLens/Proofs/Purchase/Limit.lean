import ShopLens.Proofs.Purchase.Attempts

/-!
# ShopLens.Proofs.Purchase.Limit

What the limit of purchases bounds. An attempt counts when all of it succeeds, the release of the
control keys included, so a click that is reported done is not counted if a key cannot be let go
afterwards: it is lost (`Attempt.isLost`).

* `clicksAt_le` — at one place, the clicks of a run keep to the limit and the clicks that are lost;
* `clicksAt_le_iff` — nothing less bounds them, so the limit bounds the clicks just of those runs that
  lose none.
-/

namespace ShopLens

/-! ## runs of a planner -/

/-- What may happen while purchases are counted on. -/
inductive PlannerOp where
  | purchase (key : TabKey) (l : Listing) (window : Rect) (now : Nat)
  | next (key : TabKey) (wanted : List Listing)
  | setEnabled (enabled : Bool)

/-- What came of an attempt. -/
structure Attempt where
  key : TabKey
  outcome : PurchaseOutcome
  log : List Answer

/-- Whether a click was done that was not counted. -/
def Attempt.isLost (a : Attempt) : Bool := a.outcome ≠ .purchased && clicks a.log ≠ 0

section Runs

variable {σ : Type} (d : InputDriver σ)

/-- The attempts in a run, with any input driver. -/
def attempts : Planner → σ → List PlannerOp → List Attempt
  | _, _, [] => []
  | p, s, .purchase key l window now :: ops =>
    match p.purchase key l window now d.watched (s, []) with
    | (outcome, p, s, log) => ⟨key, outcome, log⟩ :: attempts p s ops
  | p, s, .next _ _ :: ops => attempts p s ops
  | p, s, .setEnabled enabled :: ops => attempts (p.setEnabled enabled) s ops

end Runs

/-- The number of clicks at a place that were reported done. -/
def clicksAt (key : TabKey) : List Attempt → Nat
  | [] => 0
  | a :: as => (if a.key = key then clicks a.log else 0) + clicksAt key as

/-- The number of clicks at a place that are lost. -/
def lostAt (key : TabKey) (as : List Attempt) : Nat :=
  as.countP fun a => a.key = key && a.isLost

theorem clicksAt_cons (key : TabKey) (a : Attempt) (as : List Attempt) :
    clicksAt key (a :: as) = (if a.key = key then clicks a.log else 0) + clicksAt key as := rfl

theorem lostAt_cons (key : TabKey) (a : Attempt) (as : List Attempt) :
    lostAt key (a :: as) = lostAt key as + if a.key = key ∧ a.isLost = true then 1 else 0 := by
  simp [lostAt, List.countP_cons]

/-! ## the bound -/

section Runs

variable {σ : Type} {d : InputDriver σ} {p p' : Planner} {s : σ}

/-- An attempt clicks once if it is counted or lost, and is counted only under the limit. -/
theorem purchase_spec {key : TabKey} {l : Listing} {window : Rect} {now : Nat} {s' : σ}
    {outcome : PurchaseOutcome} {log : List Answer}
    (h : p.purchase key l window now d.watched (s, []) = (outcome, p', s', log)) :
    p'.limit = p.limit ∧ (∀ key', key' ≠ key → p'.purchases key' = p.purchases key') ∧
      (outcome = .purchased ∧ clicks log = 1 ∧ p'.purchases key = p.purchases key + 1 ∧
          p.isUnderLimit key = true ∨
        outcome ≠ .purchased ∧ clicks log ≤ 1 ∧ p'.purchases key = p.purchases key) := by
  rcases p.purchase_cases key l window now d.watched (s, []) with
    ⟨o, ho, heq⟩ | ⟨-, hlimit, -, x, y, -, heq⟩
  · rw [h] at heq
    cases heq
    refine ⟨rfl, fun _ _ => rfl, .inr ⟨?_, Nat.zero_le _, rfl⟩⟩
    rcases ho with rfl | rfl | rfl | rfl <;> simp
  · obtain ⟨hle, hone⟩ := d.clicks_controlClick s x y
    rw [h] at heq
    cases hr : (controlClick d.watched (s, []) x y).2 with
    | ok u =>
        rw [hr] at heq
        cases heq
        refine ⟨rfl, fun key' hne => Tally.count_set_of_ne _ _ _ hne, .inl ⟨rfl, hone hr, ?_, hlimit⟩⟩
        exact Tally.count_set _ _ _
    | error e =>
        rw [hr] at heq
        cases heq
        exact ⟨rfl, fun _ _ => rfl, .inr ⟨by simp [Planner.afterAttempt], hle, rfl⟩⟩

/-- **The limit of purchases**: with what was bought before, the clicks of a run at one place keep to
the limit and the clicks that are lost there. -/
theorem clicksAt_le (key : TabKey) (ops : List PlannerOp) (hlimit : 0 < p.limit)
    (h : p.purchases key ≤ p.limit) :
    p.purchases key + clicksAt key (attempts d p s ops) ≤
      p.limit + lostAt key (attempts d p s ops) := by
  induction ops generalizing p s with
  | nil => simpa [attempts, clicksAt, lostAt] using h
  | cons op ops ih =>
      cases op with
      | next key' wanted => exact ih hlimit h
      | setEnabled enabled => exact ih (p := p.setEnabled enabled) hlimit h
      | purchase key' l window now =>
          cases hp : p.purchase key' l window now d.watched (s, []) with
          | mk outcome rest =>
              obtain ⟨p', s', log⟩ := rest
              obtain ⟨hlimit', hother, hspec⟩ := purchase_spec hp
              simp only [attempts, hp, clicksAt_cons, lostAt_cons]
              by_cases hk : key' = key
              · subst hk
                rcases hspec with ⟨rfl, hclicks, hbought, hunder⟩ | ⟨hne, hclicks, hsame⟩
                · have hlt : p.purchases key' < p.limit := by
                    simpa [Planner.isUnderLimit, Nat.ne_of_gt hlimit] using hunder
                  have hnext := ih (p := p') (s := s') (by omega) (by omega)
                  simp [Attempt.isLost]
                  omega
                · have hnext := ih (p := p') (s := s') (by omega) (by omega)
                  by_cases hclick : clicks log = 0
                  · simp [Attempt.isLost, hclick]
                    omega
                  · simp [Attempt.isLost, hclick, hne]
                    omega
              · have hnext := ih (p := p') (s := s') (by omega)
                  (by rw [hother key (Ne.symm hk)]; omega)
                simp only [hk, if_false, false_and]
                rw [hother key (Ne.symm hk)] at hnext
                omega

end Runs

/-! ## clicks that are lost -/

/-- Input where all is done but the next releases of the left control key, of which the state is the
number. -/
def stuckKey : InputDriver Nat where
  act := fun n action =>
    match action, n with
    | .keyUp .left, n + 1 => (n, .error ⟨"stuck"⟩)
    | _, n => (n, .ok ())
  settle := fun n _ => n

theorem controlClick_stuckKey_succ (n : Nat) (x y : Float32) :
    ∃ log, controlClick stuckKey.watched (n + 1, []) x y = ((n, log), .error ⟨"stuck"⟩) ∧
      clicks log = 1 :=
  ⟨(controlClick stuckKey.watched (n + 1, []) x y).1.2, rfl, rfl⟩

theorem controlClick_stuckKey_zero (x y : Float32) :
    ∃ log, controlClick stuckKey.watched (0, []) x y = ((0, log), .ok ()) ∧ clicks log = 1 :=
  ⟨(controlClick stuckKey.watched (0, []) x y).1.2, rfl, rfl⟩

section Stuck

variable {p : Planner} {key : TabKey} {l : Listing} {window : Rect} {x y : Float32}

theorem isDue_of_delay (h : p.delay = 0) (now : Nat) : p.isDue now = true := by
  unfold Planner.isDue
  cases p.lastAttempt <;> simp [h]

/-- Purchases up to the limit, with as many lost clicks before them as releases fail. -/
theorem attempts_stuckKey (he : p.enabled = true) (hd : p.delay = 0)
    (hc : clickTarget? l.rect window = some (x, y)) (lost more : Nat)
    (hmore : p.purchases key + more ≤ p.limit) (hpos : lost = 0 ∨ 0 < more) (now : Nat) :
    clicksAt key (attempts stuckKey p lost
        (List.replicate (lost + more) (.purchase key l window now))) = lost + more ∧
      lostAt key (attempts stuckKey p lost
        (List.replicate (lost + more) (.purchase key l window now))) = lost := by
  induction lost generalizing p with
  | succ lost ih =>
      have hunder : p.isUnderLimit key = true := by
        simp only [Planner.isUnderLimit, Bool.or_eq_true, decide_eq_true_eq]
        omega
      obtain ⟨log, hlog, hclicks⟩ := controlClick_stuckKey_succ lost x y
      have hp := Planner.purchase_of_reachable (d := stuckKey.watched) (s := (lost + 1, [])) he hunder
        (isDue_of_delay hd now) hc
      rw [hlog] at hp
      obtain ⟨hcs, hls⟩ := ih (p := { p with lastAttempt := some now }) he hd hmore (by omega)
      rw [Nat.add_right_comm, List.replicate_succ]
      simp only [attempts, hp, clicksAt_cons, lostAt_cons]
      simp [Planner.afterAttempt, hcs, hls, hclicks, Attempt.isLost]
      omega
  | zero =>
      induction more generalizing p with
      | zero => simp [attempts, clicksAt, lostAt]
      | succ more ih =>
          have hunder : p.isUnderLimit key = true := by
            simp only [Planner.isUnderLimit, Bool.or_eq_true, decide_eq_true_eq]
            omega
          obtain ⟨log, hlog, hclicks⟩ := controlClick_stuckKey_zero x y
          have hp := Planner.purchase_of_reachable (d := stuckKey.watched) (s := (0, [])) he hunder
            (isDue_of_delay hd now) hc
          rw [hlog] at hp
          have hbought : (p.afterAttempt key now (.ok ())).2.purchases key = p.purchases key + 1 :=
            Tally.count_set _ _ _
          obtain ⟨hcs, hls⟩ := ih (p := (p.afterAttempt key now (.ok ())).2) he hd
            (by rw [hbought, Planner.limit_afterAttempt]; omega) (.inl rfl)
          rw [Nat.zero_add] at hcs hls ⊢
          rw [List.replicate_succ]
          simp only [attempts, hp, clicksAt_cons, lostAt_cons]
          simp only [Planner.afterAttempt] at hcs hls ⊢
          simp [hcs, hls, hclicks, Attempt.isLost]
          omega

end Stuck

/-! ## the exact bound -/

/-- A ring in the middle of a game window. -/
def shelfItem : Listing := .shown (.ring 1) .shopItem ⟨100, 100, 50, 50⟩ 0 .zero

/-- A game window. -/
def gameWindow : Rect := ⟨0, 0, 800, 600⟩

theorem clickTarget?_shelfItem : clickTarget? shelfItem.rect gameWindow = some (125, 125) := by
  decide +kernel

/-- **What bounds clicks**: with a positive limit, and nothing bought at a place before, the clicks
there keep to some bound in all runs that lose at most `lost` clicks there just when the limit and
`lost` together do. So the limit bounds the clicks of those runs that lose none, and of no others. -/
theorem clicksAt_le_iff {limit lost bound : Nat} (key : TabKey) (hlimit : 0 < limit) :
    (∀ (σ : Type) (d : InputDriver σ) (s : σ) (p : Planner) (ops : List PlannerOp),
        p.limit = limit → p.purchases key = 0 → lostAt key (attempts d p s ops) ≤ lost →
          clicksAt key (attempts d p s ops) ≤ bound) ↔
      limit + lost ≤ bound := by
  constructor
  · intro h
    have hroom : Planner.purchases { enabled := true, delay := 0, limit } key + limit ≤ limit :=
      Nat.le_of_eq (Nat.zero_add limit)
    obtain ⟨hclicks, hlost⟩ := attempts_stuckKey rfl rfl clickTarget?_shelfItem lost limit hroom
      (.inr hlimit) 0
    have hbound := h Nat stuckKey lost { enabled := true, delay := 0, limit } _ rfl rfl
      (Nat.le_of_eq hlost)
    rw [hclicks] at hbound
    omega
  · intro h σ d s p ops hp hpurchases hlost
    have hle := clicksAt_le (d := d) (s := s) key ops (by omega) (p := p) (by omega)
    omega

/-- The bound under a limit of one, for runs at the offers of a vendor that lose no click. -/
theorem clicksAt_le_one :
    0 < 1 ∧ ((∀ (σ : Type) (d : InputDriver σ) (s : σ) (p : Planner) (ops : List PlannerOp),
        p.limit = 1 → p.purchases .offers = 0 → lostAt .offers (attempts d p s ops) ≤ 0 →
          clicksAt .offers (attempts d p s ops) ≤ 1) ↔ 1 + 0 ≤ 1) :=
  ⟨by decide, clicksAt_le_iff .offers (by decide)⟩

/-- Two clicks under a limit of one: the left control key cannot be let go after the first one, which
is not counted. -/
theorem clicksAt_stuckKey_two :
    let p : Planner := { enabled := true, delay := 100, limit := 1 }
    p.purchases .offers = 0 ∧
      clicksAt .offers (attempts stuckKey p 1
        [.purchase .offers shelfItem gameWindow 0, .purchase .offers shelfItem gameWindow 1000]) =
        2 := by
  decide +kernel

end ShopLens
