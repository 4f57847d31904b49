import ShopLens.Proofs.Tabs.Runs

/-!
# ShopLens.Proofs.Tabs.Histories

Histories of the records of the tabs: runs in which the records may also be forgotten on demand.

One operation forgets the records, leaves them, or is a look that builds them anew
(`TabCache.perform_cases`); only the last gives out new numbers. The records at the end of a history
are those of the last look that built them (`TabCache.exists_lastRefresh`).
-/

namespace ShopLens

namespace TabCache

variable {c : TabCache}

/-- What may be done with the records of the tabs. -/
inductive Op where
  | event (e : Event)
  | clear

/-- The records after an operation. -/
def perform (c : TabCache) : Op → TabCache
  | .event e => c.step e
  | .clear => c.clear

/-- The records after a history. -/
def performAll (c : TabCache) (ops : List Op) : TabCache := ops.foldl perform c

@[simp] theorem performAll_nil (c : TabCache) : c.performAll [] = c := rfl

@[simp] theorem performAll_cons (c : TabCache) (op : Op) (ops : List Op) :
    c.performAll (op :: ops) = (c.perform op).performAll ops := rfl

@[simp] theorem performAll_append (c : TabCache) (ops more : List Op) :
    c.performAll (ops ++ more) = (c.performAll ops).performAll more := List.foldl_append

/-- A history without forgetting is a run. -/
@[simp] theorem performAll_events (c : TabCache) (events : List Event) :
    c.performAll (events.map .event) = c.run events := by
  induction events generalizing c with
  | nil => rfl
  | cons e events ih => exact ih (c.step e)

/-- **What an operation does**: it builds the records anew, or gives out no number and leaves all records
or none. -/
theorem perform_cases (c : TabCache) (op : Op) :
    (∃ window now, op = .event (.look window now) ∧ c.builds window now = true) ∨
      (c.perform op).nextId = c.nextId ∧
        ((c.perform op).records = [] ∨ (c.perform op).records = c.records) := by
  cases op with
  | clear => exact .inr ⟨rfl, .inl rfl⟩
  | event e =>
      cases e with
      | invalidate => exact .inr ⟨rfl, .inr rfl⟩
      | look window now =>
          show _ ∨ (c.reconcile window now).nextId = c.nextId ∧
            ((c.reconcile window now).records = [] ∨ (c.reconcile window now).records = c.records)
          rcases c.reconcile_cases window now with ⟨-, heq⟩ | ⟨hv, hp, -⟩ | ⟨-, heq⟩
          · rw [heq]
            exact .inr ⟨rfl, .inl rfl⟩
          · exact .inl ⟨window, now, rfl, by simp [builds, hv, hp]⟩
          · rw [heq]
            exact .inr ⟨rfl, .inr rfl⟩

/-! ## where the records of a history come from -/

/-- In a history the look in the middle is the last that built the records, and they were not forgotten
since. -/
structure LastRefresh (c : TabCache) (ops before : List Op) (window : Container) (now : Nat)
    (after : List Event) : Prop where
  eq_append : ops = before ++ .event (.look window now) :: after.map .event
  builds : (c.performAll before).builds window now = true
  keeps : ((c.performAll before).reconcile window now).KeepsRecords after

namespace LastRefresh

variable {ops before : List Op} {window : Container} {now : Nat} {after : List Event}

theorem performAll_eq (h : c.LastRefresh ops before window now after) :
    c.performAll ops = ((c.performAll before).reconcile window now).run after := by
  rw [h.eq_append, performAll_append, performAll_cons, performAll_events]
  rfl

/-- The records at the end of the history. -/
theorem records_eq (h : c.LastRefresh ops before window now after) :
    (c.performAll ops).records = ((c.performAll before).reconcile window now).records := by
  rw [h.performAll_eq]
  exact (run_of_keepsRecords h.keeps).1

theorem frame_eq (h : c.LastRefresh ops before window now after) :
    (c.performAll ops).frame = ((c.performAll before).reconcile window now).frame := by
  rw [h.performAll_eq]
  exact (run_of_keepsRecords h.keeps).2

theorem mem (h : c.LastRefresh ops before window now after) : .event (.look window now) ∈ ops := by
  rw [h.eq_append]
  exact List.mem_append_right _ List.mem_cons_self

end LastRefresh

/-- A history ends with a run, before which nothing was done, or the records were forgotten last. -/
theorem exists_last_run (ops : List Op) :
    ∃ (earlier : List Op) (events : List Event), ops = earlier ++ events.map .event ∧
      (earlier = [] ∨ ∃ first, earlier = first ++ [.clear]) := by
  induction ops with
  | nil => exact ⟨[], [], rfl, .inl rfl⟩
  | cons op ops ih =>
      obtain ⟨earlier, events, rfl, rfl | ⟨first, rfl⟩⟩ := ih
      · cases op with
        | event e => exact ⟨[], e :: events, rfl, .inl rfl⟩
        | clear => exact ⟨[.clear], events, rfl, .inr ⟨[], rfl⟩⟩
      · exact ⟨op :: (first ++ [.clear]), events, rfl, .inr ⟨op :: first, rfl⟩⟩

/-- The records of a history that starts without any are those of a look that built them. -/
theorem exists_lastRefresh {interval settle : Nat} {ops : List Op} {r : TabRecord}
    (h : r ∈ ((new interval settle).performAll ops).records) :
    ∃ before window now after,
      (new interval settle).LastRefresh ops before window now after := by
  obtain ⟨earlier, events, rfl, hearlier⟩ := exists_last_run ops
  have hnone : ((new interval settle).performAll earlier).records = [] := by
    rcases hearlier with rfl | ⟨first, rfl⟩
    · rfl
    · rw [performAll_append]
      rfl
  rw [performAll_append, performAll_events] at h
  rcases records_run_cases ((new interval settle).performAll earlier) events with
    hkeeps | hnil | ⟨before, window, now, after, hlast⟩
  · rw [(run_of_keepsRecords hkeeps).1, hnone] at h
    contradiction
  · rw [hnil] at h
    contradiction
  · refine ⟨earlier ++ before.map .event, window, now, after, ?_, ?_, ?_⟩
    · rw [hlast.eq_append, List.map_append, List.append_assoc, List.map_cons]
    · rw [performAll_append, performAll_events]
      exact hlast.builds
    · rw [performAll_append, performAll_events]
      exact hlast.keeps

end TabCache

end ShopLens
