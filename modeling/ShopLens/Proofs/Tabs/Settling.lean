import ShopLens.Proofs.Tabs.Currency

/-!
# ShopLens.Proofs.Tabs.Settling

What is displayed stands for a selection that was stable. Only the time of the last change of the
selection is remembered, but in a run in which the clock is not set back this says that all looks since
found the same selection (`TabCache.index_of_settled`). So at most one tab displays anything, and all
looks in the settle time before the last build of its record found this tab selected
(`TabCache.displayed_stable`).

The lists are built with the records and not with the selection. A tab that is left and selected again
before the next build shows what it showed, settled or not; nothing else is current before the settle
time is over (`TabCache.outdated_iff_not_cameBack`).
-/

namespace ShopLens

/-- Where each tab has one record and only one tab has a property, its record is alone with it. -/
theorem filter_eq_singleton {records : List TabRecord} {r : TabRecord} {p : TabRecord → Bool}
    (hnodup : (records.map TabRecord.index).Nodup) (hr : r ∈ records) (hp : p r = true)
    (hindex : ∀ r' ∈ records, p r' = true → r'.index = r.index) : records.filter p = [r] := by
  induction records with
  | nil => contradiction
  | cons r' records ih =>
      rw [List.map_cons, List.nodup_cons] at hnodup
      rcases List.mem_cons.mp hr with rfl | hmem
      · have hrest : records.filter p = [] := by
          refine List.filter_eq_nil_iff.mpr fun r' hr' hp' => hnodup.1 ?_
          rw [← hindex r' (.tail _ hr') hp']
          exact List.mem_map_of_mem hr'
        rw [List.filter_cons_of_pos hp, hrest]
      · have hnot : ¬ p r' = true := by
          intro hp'
          rw [hindex r' (.head _) hp'] at hnodup
          exact hnodup.1 (List.mem_map_of_mem hmem)
        rw [List.filter_cons_of_neg hnot]
        exact ih hnodup.2 hmem fun r'' hr'' => hindex r'' (.tail _ hr'')

namespace TabCache

variable {c : TabCache} {events before after : List Event} {window : Container} {now : Nat}

/-! ## the order of time -/

/-- When a look is; to have the records built anew takes no time. -/
def Event.time? : Event → Option Nat
  | look _ now => some now
  | invalidate => none

/-- The clock is not set back during a run. -/
def InOrder (events : List Event) : Prop := (events.filterMap Event.time?).Pairwise (· ≤ ·)

instance : Decidable (InOrder events) :=
  inferInstanceAs (Decidable ((events.filterMap Event.time?).Pairwise (· ≤ ·)))

theorem InOrder.of_append (h : InOrder (before ++ after)) : InOrder before := by
  rw [InOrder, List.filterMap_append, List.pairwise_append] at h
  exact h.1

/-- A look comes no earlier than those before it. -/
theorem InOrder.le (h : InOrder (before ++ .look window now :: after)) {w : Container} {t : Nat}
    (hmem : .look w t ∈ after) : now ≤ t := by
  rw [InOrder, List.filterMap_append, List.pairwise_append] at h
  have hlater : (now :: after.filterMap Event.time?).Pairwise (· ≤ ·) := h.2.1
  exact (List.pairwise_cons.mp hlater).1 t (List.mem_filterMap.mpr ⟨_, hmem, rfl⟩)

/-- No look of a run comes later than the last one. -/
theorem InOrder.le_last (h : InOrder (events ++ [.look window now])) {w : Container} {t : Nat}
    (hmem : .look w t ∈ events ++ [.look window now]) : t ≤ now := by
  rcases List.mem_append.mp hmem with hbefore | hlast
  · rw [InOrder, List.filterMap_append, List.pairwise_append] at h
    exact h.2.2 t (List.mem_filterMap.mpr ⟨_, hbefore, rfl⟩) now List.mem_cons_self
  · injection List.mem_singleton.mp hlast with _ hnow
    exact Nat.le_of_eq hnow

theorem isSettled_of_le {st : SelectionState} {settle earlier : Nat} (hle : earlier ≤ now)
    (h : st.isSettled settle earlier = true) : st.isSettled settle now = true := by
  unfold SelectionState.isSettled at *
  cases hc : st.changedAt with
  | none => rfl
  | some t =>
      rw [hc, hasPassed_some, decide_eq_true_eq] at h
      simp
      omega

/-! ## changes of the selection -/

theorem selection_reconcile (c : TabCache) (window : Container) (now : Nat) :
    (c.reconcile window now).selection = c.selection.update window.selection now := by
  rcases c.reconcile_cases window now with ⟨-, heq⟩ | ⟨-, -, heq⟩ | ⟨-, heq⟩ <;> rw [heq]
  rfl

@[simp] theorem index_reconcile (c : TabCache) (window : Container) (now : Nat) :
    (c.reconcile window now).selection.index = window.selection.index := by
  rw [selection_reconcile]
  rfl

theorem changedAt_reconcile_of_eq (h : window.selection.index = c.selection.index) :
    (c.reconcile window now).selection.changedAt = c.selection.changedAt := by
  rw [selection_reconcile]
  simp [SelectionState.update, SelectionState.isChangedBy, h]

theorem changedAt_reconcile_of_ne (h : window.selection.index ≠ c.selection.index) :
    (c.reconcile window now).selection.changedAt = some now := by
  rw [selection_reconcile]
  simp [SelectionState.update, SelectionState.isChangedBy, h]

theorem settle_step (c : TabCache) (e : Event) : (c.step e).settle = c.settle := by
  cases e with
  | look window now => exact c.settle_reconcile window now
  | invalidate => rfl

@[simp] theorem settle_run (c : TabCache) (events : List Event) :
    (c.run events).settle = c.settle := by
  induction events generalizing c with
  | nil => rfl
  | cons e events ih => exact (ih (c.step e)).trans (settle_step c e)

/-- Over a run all looks find the selection as it was, or one does not and the last change of the
selection is at the time of a look of the run. -/
theorem selection_run_cases (c : TabCache) (events : List Event) :
    ((c.run events).selection.index = c.selection.index ∧
        (c.run events).selection.changedAt = c.selection.changedAt) ∨
      (∃ w t, Event.look w t ∈ events ∧ w.selection.index ≠ c.selection.index) ∧
        ∃ w t, Event.look w t ∈ events ∧ (c.run events).selection.changedAt = some t := by
  induction events generalizing c with
  | nil => exact .inl ⟨rfl, rfl⟩
  | cons e events ih =>
      cases e with
      | invalidate =>
          rcases ih c.invalidate with hsame | ⟨⟨w, t, hmem, hne⟩, w', t', hmem', hchanged⟩
          · exact .inl hsame
          · exact .inr ⟨⟨w, t, .tail _ hmem, hne⟩, w', t', .tail _ hmem', hchanged⟩
      | look window now =>
          by_cases hindex : window.selection.index = c.selection.index
          · have hkept : (c.reconcile window now).selection.changedAt = c.selection.changedAt :=
              changedAt_reconcile_of_eq hindex
            have hindex' := (index_reconcile c window now).trans hindex
            rcases ih (c.reconcile window now) with
              ⟨hsame, hchanged⟩ | ⟨⟨w, t, hmem, hne⟩, w', t', hmem', hchanged⟩
            · exact .inl ⟨hsame.trans hindex', hchanged.trans hkept⟩
            · exact .inr ⟨⟨w, t, .tail _ hmem, hindex' ▸ hne⟩, w', t', .tail _ hmem', hchanged⟩
          · -- this look is the first that finds another selection, and a later one may be the last
            refine .inr ⟨⟨window, now, .head _, hindex⟩, ?_⟩
            have hnow : (c.reconcile window now).selection.changedAt = some now :=
              changedAt_reconcile_of_ne hindex
            rcases ih (c.reconcile window now) with ⟨-, hchanged⟩ | ⟨-, w', t', hmem', hchanged⟩
            · exact ⟨window, now, .head _, hchanged.trans hnow⟩
            · exact ⟨w', t', .tail _ hmem', hchanged⟩

/-- Where the selection is settled at the end of a run, all looks in the settle time before found it. -/
theorem index_of_settled (horder : InOrder events) {w : Container} {t settle : Nat}
    (hmem : .look w t ∈ events) (ht : t ≤ now) (hrecent : now < t + settle)
    (hsettled : (c.run events).selection.isSettled settle now = true) :
    w.selection.index = (c.run events).selection.index := by
  obtain ⟨before, after, rfl⟩ := List.append_of_mem hmem
  rw [run_append, run_cons] at hsettled ⊢
  rcases selection_run_cases ((c.run before).step (.look w t)) after with
    ⟨hindex, -⟩ | ⟨-, w', changed, hchange, hchanged⟩
  · exact (hindex.trans (index_reconcile _ w t)).symm
  · -- a change since this look would lie in the settle time
    have hle := horder.le hchange
    rw [SelectionState.isSettled, hchanged, hasPassed_some, decide_eq_true_eq] at hsettled
    omega

/-! ## what is displayed -/

section Displayed

variable {interval settle : Nat} {r : TabRecord}

/-- **What is displayed stands for a stable selection**: in a run in which the clock is not set back, a
tab that displays something is the only one, and all looks in the settle time up to the build of the
records found it selected. -/
theorem displayed_stable (horder : InOrder events)
    (hr : r ∈ ((new interval settle).run events).records) (hd : r.displayedItems ≠ []) :
    (((new interval settle).run events).records.filter fun r => !r.displayedItems.isEmpty) = [r] ∧
      ∃ before window built after,
        (new interval settle).LastBuild events before window built after ∧
          ∀ w t, Event.look w t ∈ before ++ [.look window built] → built < t + settle → t ≤ built →
            w.selection.index = some r.index := by
  obtain ⟨before, window, built, after, hlast⟩ := exists_lastBuild hr
  obtain ⟨l, hl⟩ := List.exists_mem_of_ne_nil _ hd
  obtain ⟨hsettled, hindex, -⟩ := hlast.of_displayed hr hl
  constructor
  · refine filter_eq_singleton hlast.nodup_index hr (by simpa using hd) fun r' hr' hd' => ?_
    obtain ⟨l', hl'⟩ := List.exists_mem_of_ne_nil _ (by simpa using hd')
    obtain ⟨-, hindex', -⟩ := hlast.of_displayed hr' hl'
    exact Option.some.inj (hindex'.symm.trans hindex)
  · refine ⟨before, window, built, after, hlast, fun w t hmem hrecent ht => ?_⟩
    rw [settle_run] at hsettled
    have hrun : (new interval settle).run (before ++ [.look window built]) =
        ((new interval settle).run before).reconcile window built := by simp [step]
    rw [← hindex, ← hrun]
    rw [← hrun] at hsettled
    refine index_of_settled ?_ hmem ht hrecent hsettled
    rw [hlast.eq_append, List.append_cons] at horder
    exact horder.of_append

/-- A tab is selected for as long as it takes to settle, and then to have its record built. -/
theorem displayed_stable_of_wait :
    let events := [Event.look (shop 1) 0, .look (shop 0) 10, .look (shop 0) 60, .look (shop 0) 130,
      .invalidate]
    ∃ r ∈ ((new 50 120).run events).records, InOrder events ∧ r.displayedItems ≠ [] ∧
      (((new 50 120).run events).records.filter fun r => !r.displayedItems.isEmpty) = [r] ∧
      ∃ before window built after, (new 50 120).LastBuild events before window built after ∧
        ∀ w t, Event.look w t ∈ before ++ [.look window built] → built < t + 120 → t ≤ built →
          w.selection.index = some r.index := by
  intro events
  obtain ⟨r, hr, l, hl⟩ := exists_displayed (c := (new 50 120).run events) (by decide +kernel)
  have hd : r.displayedItems ≠ [] := List.ne_nil_of_mem hl
  exact ⟨r, hr, by decide, hd, displayed_stable (by decide) hr hd⟩

/-- The selection came back to a tab since the records were built: the tab was selected then and
displayed something, a later look did not find it selected, and now it is selected again. -/
def CameBack (c : TabCache) (events : List Event) : Prop :=
  ∃ before window built after tab, c.LastBuild events before window built after ∧
    ((c.run before).reconcile window built).selected? = some tab ∧ tab.displayedItems ≠ [] ∧
    (∃ w t, Event.look w t ∈ after ∧ w.selection.index ≠ some tab.index) ∧
    (c.run events).selection.index = some tab.index

/-- A tab that the selection came back to is selected, with what it displayed. -/
theorem selected?_of_cameBack (h : c.CameBack events) :
    ∃ tab, (c.run events).selected? = some tab ∧ tab.displayedItems ≠ [] := by
  obtain ⟨before, window, built, after, tab, hlast, htab, hd, -, hindex⟩ := h
  refine ⟨tab, ?_, hd⟩
  obtain ⟨hmem, -⟩ := mem_of_selected? htab
  exact selected?_of_mem hlast.nodup_index (hlast.records_eq ▸ hmem) hindex

/-- A tab that displays something while the selection is not settled was left and selected again. -/
theorem cameBack_of_displayed (horder : InOrder (events ++ [.look window now]))
    (hunsettled : ((new interval settle).run (events ++ [.look window now])).selection.isSettled
      settle now = false) {tab : TabRecord}
    (htab : ((new interval settle).run (events ++ [.look window now])).selected? = some tab)
    (hd : tab.displayedItems ≠ []) :
    (new interval settle).CameBack (events ++ [.look window now]) := by
  obtain ⟨hmem, hindex⟩ := mem_of_selected? htab
  obtain ⟨before, window', built, after, hlast⟩ := exists_lastBuild hmem
  obtain ⟨l, hl⟩ := List.exists_mem_of_ne_nil _ hd
  obtain ⟨hsettled, hindex', -⟩ := hlast.of_displayed hmem hl
  have hrun : (new interval settle).run (events ++ [.look window now]) =
      (((new interval settle).run before).reconcile window' built).run after := by
    rw [hlast.eq_append, run_append, run_cons]
    rfl
  rcases selection_run_cases (((new interval settle).run before).reconcile window' built) after with
    ⟨-, hchanged⟩ | ⟨⟨w, t, hlook, hne⟩, -⟩
  · -- the selection was settled when the records were built, and is still the same
    have hle : built ≤ now := horder.le_last hlast.mem
    have hsettled' := isSettled_of_le hle hsettled
    rw [settle_run, SelectionState.isSettled, ← hchanged, ← hrun] at hsettled'
    exact absurd hsettled' (Bool.eq_false_iff.mp hunsettled)
  · refine ⟨before, window', built, after, tab, hlast, ?_, hd, ⟨w, t, hlook, hindex' ▸ hne⟩, hindex⟩
    exact selected?_of_mem (hlast.records_eq ▸ hlast.nodup_index) (hlast.records_eq ▸ hmem) hindex'

/-- **What is current before the selection is settled**: in a run in which the clock is not set back,
and which ends with a look before the selection is settled, nothing on the selected tab is current, just
when the selection did not come back to the tab since the records were built. -/
theorem outdated_iff_not_cameBack (horder : InOrder (events ++ [.look window now]))
    (hunsettled : ((new interval settle).run (events ++ [.look window now])).selection.isSettled
      settle now = false) :
    (∀ tab, ((new interval settle).run (events ++ [.look window now])).selected? = some tab →
        ∀ l ∈ tab.displayedItems,
          ((new interval settle).run (events ++ [.look window now])).isCurrent l = false) ↔
      ¬ (new interval settle).CameBack (events ++ [.look window now]) := by
  constructor
  · intro hnone hback
    obtain ⟨tab, htab, hd⟩ := selected?_of_cameBack hback
    obtain ⟨l, hl⟩ := List.exists_mem_of_ne_nil _ hd
    have hcurrent := isCurrent_of_selected htab hl
    rw [hnone tab htab l hl] at hcurrent
    contradiction
  · intro hback tab htab l hl
    exact absurd (cameBack_of_displayed horder hunsettled htab (List.ne_nil_of_mem hl)) hback

end Displayed

/-- Before the other tab is settled nothing on it is current: the selection did not come back. -/
theorem outdated_of_switch :
    let events := [Event.look (shop 0) 0, .look (shop 0) 120] ++ [.look (shop 1) 130]
    let c := (new 50 120).run events
    InOrder events ∧ c.selection.isSettled 120 130 = false ∧
      ((∀ tab, c.selected? = some tab → ∀ l ∈ tab.displayedItems, c.isCurrent l = false) ↔
        ¬ (new 50 120).CameBack events) :=
  ⟨by decide, by decide +kernel, outdated_iff_not_cameBack (by decide) (by decide +kernel)⟩

/-- The other tab is selected for a moment. When the first one is selected again, what it displays is
current at once, and stays so until the records are built anew. -/
theorem current_of_flicker :
    let events := [Event.look (shop 0) 0, .look (shop 0) 120, .look (shop 1) 130, .look (shop 0) 140]
    let c := (new 50 120).run events
    InOrder events ∧ c.selection.isSettled 120 140 = false ∧
      ∃ tab, c.selected? = some tab ∧ ∃ l ∈ tab.displayedItems, c.isCurrent l = true := by
  intro events c
  have hdisplayed : (c.selected?.elim [] TabRecord.displayedItems).isEmpty = false := by
    decide +kernel
  refine ⟨by decide, by decide +kernel, ?_⟩
  cases htab : c.selected? with
  | none =>
      rw [htab] at hdisplayed
      contradiction
  | some tab =>
      rw [htab] at hdisplayed
      obtain ⟨l, hl⟩ := List.isEmpty_eq_false_iff_exists_mem.mp hdisplayed
      exact ⟨tab, rfl, l, hl, isCurrent_of_selected htab hl⟩

end TabCache

end ShopLens
