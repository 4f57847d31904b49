import ShopLens.Proofs.Session.Runs
import ShopLens.Proofs.Tabs.Shape

/-!
# ShopLens.Proofs.Session.Records

Where the records of the tabs come from, over any run of a session. They are those of the last look at
the shop window that built them, with nothing since that puts others in their place
(`Session.LastBuild`), or there are none: new settings and a closed window leave none behind.

So the records stand in the order of the tabs, each was made for a tab of the window of that look, and
what the server reports of it is not laid out.
-/

namespace ShopLens

namespace Session

variable {s : Session} {actions before after : List Action} {window : Container} {now : Nat}

/-- Over a run that keeps them the records stay. -/
theorem run_of_keepsRecords (h : s.KeepsRecords actions) :
    (s.run actions).tabs.records = s.tabs.records := by
  have hactions : ∀ a ∈ actions, a.isApplySettings = false := fun a ha =>
    Bool.eq_false_iff.mpr fun hnew => not_keepsRecords_of_applySettings ha hnew h
  obtain ⟨events, hrun, hkeeps⟩ := exists_tabs_run (s := s) hactions
  rw [hrun]
  exact (TabCache.run_of_keepsRecords (hkeeps.mp h)).1

/-- In a run of these actions the look in the middle built the records that are there at its end. -/
structure LastBuild (s : Session) (actions before : List Action) (window : Container) (now : Nat)
    (after : List Action) : Prop where
  eq_append : actions = before ++ .reconcile window now :: after
  builds : (s.run before).tabs.builds window now = true
  keeps : ((s.run before).reconcile window now).KeepsRecords after

/-- What puts other records in the place of those there are builds them from a window, or leaves none. -/
theorem step_of_rebuilds {a : Action} (h : s.rebuilds a = true) :
    (∃ window now, a = .reconcile window now ∧ s.tabs.builds window now = true) ∨
      (s.step a).tabs.records = [] := by
  rcases s.step_cases a with ⟨settings, rfl⟩ | ⟨window, now, rfl⟩ | ⟨hnot, -⟩
  · exact .inr rfl
  · cases hb : s.tabs.builds window now with
    | true => exact .inl ⟨window, now, rfl, hb⟩
    | false => exact .inr (TabCache.records_reconcile_of_not_builds h hb)
  · rw [h] at hnot
    contradiction

/-- A run keeps the records, or leaves none, or leaves those of the last look that built them. -/
theorem records_run_cases (s : Session) (actions : List Action) :
    s.KeepsRecords actions ∨ (s.run actions).tabs.records = [] ∨
      ∃ before window now after, s.LastBuild actions before window now after := by
  induction actions generalizing s with
  | nil => exact .inl trivial
  | cons a actions ih =>
      rcases ih (s.step a) with hkeeps | hnil | ⟨before, window, now, after, hlast⟩
      · cases hr : s.rebuilds a with
        | false => exact .inl ⟨hr, hkeeps⟩
        | true =>
            rcases step_of_rebuilds hr with ⟨window, now, rfl, hb⟩ | hnil
            · exact .inr (.inr ⟨[], window, now, actions, rfl, hb, hkeeps⟩)
            · exact .inr (.inl ((run_of_keepsRecords hkeeps).trans hnil))
      · exact .inr (.inl hnil)
      · exact .inr (.inr ⟨a :: before, window, now, after,
          congrArg (a :: ·) hlast.eq_append, hlast.builds, hlast.keeps⟩)

/-- From the start of a session on, there are no records or those of a look that built them. -/
theorem records_eq_nil_or_lastBuild (compiler : Filter.Compiler) (settings : Settings)
    (actions : List Action) :
    ((withCompiler compiler settings).run actions).tabs.records = [] ∨
      ∃ before window now after,
        (withCompiler compiler settings).LastBuild actions before window now after := by
  rcases (withCompiler compiler settings).records_run_cases actions with hkeeps | hnil | hlast
  · exact .inl (run_of_keepsRecords hkeeps)
  · exact .inl hnil
  · exact .inr hlast

namespace LastBuild

/-- The records at the end of the run are made for the tabs of the window. -/
theorem exists_recordsOf (h : s.LastBuild actions before window now after) :
    ∃ previous stamp settled nextId, (s.run actions).tabs.records =
      (recordsOf previous stamp settled nextId window.stockedTabs).1 := by
  have hrecords : (s.run actions).tabs.records =
      ((s.run before).tabs.reconcile window now).records := by
    rw [h.eq_append, run, List.foldl_append]
    exact run_of_keepsRecords h.keeps
  rw [hrecords, TabCache.reconcile_of_builds h.builds]
  exact ⟨_, _, _, _, rfl⟩

/-- Each record is made for the tab at its index. -/
theorem exists_tab (h : s.LastBuild actions before window now after) {r : TabRecord}
    (hr : r ∈ (s.run actions).tabs.records) :
    ∃ tab id identity stamp settled, window.tabs[r.index]? = some (some tab) ∧
      r = tab.record id identity stamp settled := by
  obtain ⟨previous, stamp, settled, nextId, hrecords⟩ := h.exists_recordsOf
  rw [hrecords] at hr
  obtain ⟨index, tab, inventory, id, hmem, rfl⟩ := exists_tab_of_mem hr
  exact ⟨tab, id, _, stamp, settled, (mem_stockedTabs_iff.mp hmem).1, rfl⟩

end LastBuild

/-! ## the records of a session -/

section Reachable

variable (compiler : Filter.Compiler) (settings : Settings) (actions : List Action)

/-- The records stand in the order of the tabs. -/
theorem pairwise_index_records :
    ((withCompiler compiler settings).run actions).tabs.records.Pairwise (·.index < ·.index) := by
  rcases records_eq_nil_or_lastBuild compiler settings actions with
    hnil | ⟨before, window, now, after, hlast⟩
  · rw [hnil]
    exact .nil
  · obtain ⟨previous, stamp, settled, nextId, hrecords⟩ := hlast.exists_recordsOf
    rw [hrecords, ← List.pairwise_map, map_index_recordsOf]
    exact pairwise_lt_stockedTabs window

variable {compiler settings actions} {r : TabRecord} {l : Listing}

/-- What the server reports of a tab is not laid out. -/
theorem displayed_of_mem_serverItems
    (hr : r ∈ ((withCompiler compiler settings).run actions).tabs.records)
    (hl : l ∈ r.serverItems) : l.displayed = false := by
  rcases records_eq_nil_or_lastBuild compiler settings actions with
    hnil | ⟨before, window, now, after, hlast⟩
  · rw [hnil] at hr
    contradiction
  · obtain ⟨tab, id, identity, stamp, settled, -, rfl⟩ := hlast.exists_tab hr
    obtain ⟨item, -, -, rfl⟩ := Tab.exists_item_of_mem hl
    rfl

end Reachable

end Session

end ShopLens
