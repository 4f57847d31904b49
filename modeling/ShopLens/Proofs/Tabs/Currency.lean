import ShopLens.Proofs.Tabs.Runs

/-!
# ShopLens.Proofs.Tabs.Currency

Which items are current. An item that was displayed at some time in a run is current as long as it is
displayed on the tab that is selected now, and at no other time (`TabCache.isCurrent_iff_displayed`);
for this it does not matter when the looks at the window are, or that the clock may be set back.
-/

namespace ShopLens

/-! ## records of different tabs -/

section Records

variable {records : List TabRecord} {r : TabRecord}

/-- Where each tab has one record, the record is found by the index of its tab. -/
theorem find?_index (hnodup : (records.map TabRecord.index).Nodup) (hr : r ∈ records) :
    records.find? (·.index == r.index) = some r := by
  induction records with
  | nil => contradiction
  | cons r' records ih =>
      rw [List.map_cons, List.nodup_cons] at hnodup
      rcases List.mem_cons.mp hr with rfl | hmem
      · simp
      · have hne : r'.index ≠ r.index := by
          intro heq
          exact hnodup.1 (heq ▸ List.mem_map_of_mem hmem)
        rw [List.find?_cons_of_neg (by simpa using hne)]
        exact ih hnodup.2 hmem

end Records

namespace TabCache

variable {c : TabCache} {r : TabRecord} {l : Listing}

theorem mem_of_selected? (h : c.selected? = some r) :
    r ∈ c.records ∧ c.selection.index = some r.index := by
  obtain ⟨index, hindex, hfind⟩ := Option.bind_eq_some_iff.mp h
  have heq : r.index = index := by simpa using List.find?_some hfind
  exact ⟨List.mem_of_find?_eq_some hfind, heq ▸ hindex⟩

theorem selected?_of_mem (hnodup : (c.records.map TabRecord.index).Nodup) (hr : r ∈ c.records)
    (hindex : c.selection.index = some r.index) : c.selected? = some r := by
  rw [selected?, hindex]
  exact find?_index hnodup hr

/-! ## items in runs -/

variable {interval settle : Nat} {events : List Event}

/-- What is displayed on the selected tab is current. -/
theorem isCurrent_of_selected {tab : TabRecord}
    (htab : ((new interval settle).run events).selected? = some tab) (hl : l ∈ tab.displayedItems) :
    ((new interval settle).run events).isCurrent l = true := by
  obtain ⟨hmem, hindex⟩ := mem_of_selected? htab
  obtain ⟨before, window, now, after, hlast⟩ := exists_lastBuild hmem
  obtain ⟨-, -, hstamp⟩ := hlast.of_displayed hmem hl
  refine decide_eq_true ?_
  rw [hstamp, stamp, hindex]

/-- **Currency**: what was displayed at some time in a run is current, whatever happened since, just
when it is displayed on the tab that is selected now. -/
theorem isCurrent_iff_displayed {before after : List Event}
    (hr : r ∈ ((new interval settle).run before).records) (hl : l ∈ r.displayedItems) :
    ((new interval settle).run (before ++ after)).isCurrent l = true ↔
      ∃ tab, ((new interval settle).run (before ++ after)).selected? = some tab ∧
        ((new interval settle).run (before ++ after)).selection.index = some tab.index ∧
          l ∈ tab.displayedItems := by
  constructor
  · intro hcurrent
    obtain ⟨earlier, window, now, later, hlast⟩ := exists_lastBuild hr
    obtain ⟨-, -, hstamp⟩ := hlast.of_displayed hr hl
    rw [run_append] at hcurrent ⊢
    rcases keepsRecords_or_outdated ((new interval settle).run before) after with hkeeps | hout
    · obtain ⟨hrecords, hframe⟩ := run_of_keepsRecords hkeeps
      -- the stamp tells the tab of the item, so what is current again is on the tab selected again
      have hindex := congrArg Stamp.selection (hstamp.symm.trans (of_decide_eq_true hcurrent))
      refine ⟨r, selected?_of_mem ?_ (hrecords ▸ hr) hindex.symm, hindex.symm, hl⟩
      rw [hrecords]
      exact hlast.nodup_index
    · rw [isCurrent_of_outdated hout (congrArg Stamp.frame hstamp) (by simp [hstamp])] at hcurrent
      contradiction
  · rintro ⟨tab, htab, -, hmem⟩
    exact isCurrent_of_selected htab hmem

/-! ## a tab that is left and selected again -/

/-- A tab with a ring that is laid out, and another one that only the server reports. -/
def ringTab (inventory : Inventory) : Tab where
  inventory := .ok inventory
  visible := .ok true
  header := none
  headerSelected := none
  displayed := .ok [⟨some (.ring 1), .zero, true⟩]
  server := .ok [.ring 2]

/-- A window of two tabs with rings, of which one is selected. -/
def shop (selected : Nat) : Container where
  visible := true
  tabs := [some (ringTab ⟨256, 1⟩), some (ringTab ⟨512, 1⟩)]
  buybackVisible := none
  buybackIndex := none
  shownIndex := some selected
  shownAddress := none
  selectedIndex := none

theorem exists_displayed (h : (c.records.flatMap TabRecord.displayedItems).isEmpty = false) :
    ∃ r ∈ c.records, ∃ l, l ∈ r.displayedItems := by
  obtain ⟨l, hl⟩ := List.isEmpty_eq_false_iff_exists_mem.mp h
  obtain ⟨r, hr, hmem⟩ := List.mem_flatMap.mp hl
  exact ⟨r, hr, l, hmem⟩

/-- The other tab is selected for a moment, and the first one again before the records are built anew:
what it displayed is current again. -/
theorem isCurrent_of_flicker :
    let before := [Event.look (shop 0) 0, .look (shop 0) 120]
    let after := [Event.look (shop 1) 130, .look (shop 0) 140]
    let c := (new 50 120).run (before ++ after)
    ∃ r ∈ ((new 50 120).run before).records, ∃ l ∈ r.displayedItems,
      (c.isCurrent l = true ↔ ∃ tab, c.selected? = some tab ∧
        c.selection.index = some tab.index ∧ l ∈ tab.displayedItems) := by
  intro before after c
  obtain ⟨r, hr, l, hl⟩ := exists_displayed (c := (new 50 120).run before) (by decide +kernel)
  exact ⟨r, hr, l, hl, isCurrent_iff_displayed hr hl⟩

end TabCache

end ShopLens
