import ShopLens.Proofs.History
import ShopLens.Purchase.Toggle

/-!
# ShopLens.Proofs.Purchase.Firings

When the key that switches buying on and off acts, said of the updates that it was fed and not of its state.
The state remembers whether the key was down at the last update (`Toggle.held_after`), also if it did not
act then, and the time at which it last acted (`Toggle.lastFired_after_eq_some_iff`).

So the key acts when it goes down and has rested since it last acted. Between two times at which it acts it
was up, and they are apart by as long as it rests, also if the clock was set back in between
(`Toggle.fires_exactly`).
-/

namespace ShopLens

/-- The key as it is found at a time. -/
structure KeyUpdate where
  down : Bool
  now : Nat
deriving DecidableEq, Repr

namespace Toggle

/-! ## histories -/

/-- The state after some updates. -/
def after (past : List KeyUpdate) : Toggle := past.foldl (fun t u => t.update u.down u.now) {}

/-- The key acts with an update that follows others. -/
def Fires (past : List KeyUpdate) (u : KeyUpdate) : Prop :=
  (after past).fires u.down u.now = true

theorem after_concat (past : List KeyUpdate) (u : KeyUpdate) :
    after (past ++ [u]) = (after past).update u.down u.now := by
  simp [after]

/-! ## what is remembered -/

variable {past : List KeyUpdate} {u v : KeyUpdate}

theorem held_after (past : List KeyUpdate) : (after past).held = past.getLast?.any (·.down) := by
  rcases List.eq_nil_or_concat past with rfl | ⟨past, u, rfl⟩
  · rfl
  · simp [after_concat, update]

theorem lastFired_after_concat_of_fires (h : Fires past u) :
    (after (past ++ [u])).lastFired = some u.now := by
  rw [after_concat]
  exact if_pos h

theorem lastFired_after_concat_of_not_fires (h : ¬ Fires past u) :
    (after (past ++ [u])).lastFired = (after past).lastFired := by
  rw [after_concat]
  exact if_neg h

theorem lastFired_after_eq_none_iff : (after past).lastFired = none ↔ Never Fires past := by
  induction past using List.reverseRecOn with
  | nil => exact iff_of_true rfl never_nil
  | append_singleton past u ih =>
      rw [never_concat_iff, ← ih]
      by_cases hu : Fires past u
      · simp [lastFired_after_concat_of_fires hu, hu]
      · simp [lastFired_after_concat_of_not_fires hu, hu]

theorem lastFired_after_eq_some_iff {time : Nat} :
    (after past).lastFired = some time ↔ ∃ q, Latest Fires past q ∧ q.now = time := by
  induction past using List.reverseRecOn with
  | nil => exact iff_of_false nofun fun ⟨q, hq, _⟩ => not_latest_nil hq
  | append_singleton past u ih =>
      by_cases hu : Fires past u
      · simp [lastFired_after_concat_of_fires hu, latest_concat_iff, hu]
      · simp [lastFired_after_concat_of_not_fires hu, latest_concat_iff, hu, ih]

/-! ## when the key acts -/

/-- The key was up when it was last found, or it was never found. -/
theorem held_after_eq_false_iff :
    (after past).held = false ↔ ∀ v, past.getLast? = some v → v.down = false := by
  rw [held_after]
  cases past.getLast? <;> simp

/-- The key has rested if it never acted, or last acted long enough ago. -/
theorem hasPassed_lastFired_iff {now : Nat} :
    hasPassed toggleRest (after past).lastFired now = true ↔
      Never Fires past ∨ ∃ q, Latest Fires past q ∧ q.now + 1000 ≤ now := by
  cases hlast : (after past).lastFired with
  | none => exact iff_of_true rfl (.inl (lastFired_after_eq_none_iff.mp hlast))
  | some time =>
      rw [hasPassed_some, decide_eq_true_iff, toggleRest]
      constructor
      · intro hpassed
        obtain ⟨q, hq, rfl⟩ := lastFired_after_eq_some_iff.mp hlast
        exact .inr ⟨q, hq, by omega⟩
      · rintro (hnever | ⟨q, hq, hle⟩)
        · rw [lastFired_after_eq_none_iff.mpr hnever] at hlast
          contradiction
        · rw [lastFired_after_eq_some_iff.mpr ⟨q, hq, rfl⟩] at hlast
          obtain rfl := Option.some.inj hlast
          omega

theorem fires_iff : Fires past u ↔ u.down = true ∧
    (∀ v, past.getLast? = some v → v.down = false) ∧
    (Never Fires past ∨ ∃ q, Latest Fires past q ∧ q.now + 1000 ≤ u.now) := by
  rw [Fires, fires, Bool.and_eq_true, Bool.and_eq_true, Bool.not_eq_true', held_after_eq_false_iff,
    hasPassed_lastFired_iff, and_assoc]

/-! ## two times at which it acts -/

theorem add_le_of_fires {time : Nat} (hlast : (after past).lastFired = some time)
    (h : Fires past u) : time + 1000 ≤ u.now := by
  rw [Fires, fires, Bool.and_eq_true, hlast, hasPassed_some, decide_eq_true_iff, toggleRest] at h
  omega

/-- Once the key has acted, it last acted then or later. The clock cannot be set back behind that time: as
long as it shows less, the key rests. -/
theorem exists_lastFired (h : Fires past u) (between : List KeyUpdate) :
    ∃ time, (after (past ++ u :: between)).lastFired = some time ∧ u.now ≤ time := by
  induction between using List.reverseRecOn with
  | nil => exact ⟨u.now, lastFired_after_concat_of_fires h, Nat.le_refl _⟩
  | append_singleton between w ih =>
      obtain ⟨time, htime, hle⟩ := ih
      rw [← List.cons_append, ← List.append_assoc]
      by_cases hw : Fires (past ++ u :: between) w
      · refine ⟨w.now, lastFired_after_concat_of_fires hw, ?_⟩
        have hrested := add_le_of_fires htime hw
        omega
      · exact ⟨time, (lastFired_after_concat_of_not_fires hw).trans htime, hle⟩

/-- **When the key acts**: it goes down, and it never acted or last acted a second ago or more. So between
two times at which it acts it was up, and they are a second apart or more, whatever the clock showed in
between. -/
theorem fires_exactly (past : List KeyUpdate) (u : KeyUpdate) :
    (Fires past u ↔ u.down = true ∧ (∀ v, past.getLast? = some v → v.down = false) ∧
      (Never Fires past ∨ ∃ q, Latest Fires past q ∧ q.now + 1000 ≤ u.now)) ∧
      ∀ between v, Fires past u → Fires (past ++ u :: between) v →
        (∃ w ∈ between, w.down = false) ∧ u.now + 1000 ≤ v.now := by
  refine ⟨fires_iff, fun between v hu hv => ?_⟩
  constructor
  · obtain ⟨-, hup, -⟩ := fires_iff.mp hv
    rcases List.eq_nil_or_concat between with rfl | ⟨between, w, rfl⟩
    · have hdown := hup u List.getLast?_concat
      rw [(fires_iff.mp hu).1] at hdown
      contradiction
    · refine ⟨w, by simp, hup w ?_⟩
      rw [List.concat_eq_append, ← List.cons_append, ← List.append_assoc, List.getLast?_concat]
  · obtain ⟨time, htime, hle⟩ := exists_lastFired hu between
    have hrested := add_le_of_fires htime hv
    omega

/-- A press in the second after the key acted does nothing, also if the clock was set back, and neither
does holding the key until the second is over. -/
theorem fires_of_clock_set_back :
    let past : List KeyUpdate := [⟨true, 5000⟩, ⟨false, 100⟩, ⟨true, 5500⟩, ⟨true, 6000⟩, ⟨false, 6000⟩]
    Fires [] ⟨true, 5000⟩ ∧ Fires past ⟨true, 6000⟩ ∧
      ¬ Fires [⟨true, 5000⟩, ⟨false, 100⟩, ⟨true, 5500⟩] ⟨true, 6000⟩ ∧
      (∃ w ∈ past.tail, w.down = false) ∧ 5000 + 1000 ≤ 6000 := by
  intro past
  have hfirst : Fires [] ⟨true, 5000⟩ := (fires_exactly [] ⟨true, 5000⟩).1.mpr ⟨rfl, nofun, .inl never_nil⟩
  have hagain : Fires past ⟨true, 6000⟩ := by
    unfold Fires
    decide
  have hheld : ¬ Fires [⟨true, 5000⟩, ⟨false, 100⟩, ⟨true, 5500⟩] ⟨true, 6000⟩ := by
    unfold Fires
    decide
  exact ⟨hfirst, hagain, hheld, (fires_exactly [] ⟨true, 5000⟩).2 _ ⟨true, 6000⟩ hfirst hagain⟩

end Toggle

end ShopLens
