import ShopLens.Proofs.Tabs.Frames

/-!
# ShopLens.Proofs.Tabs.Runs

Runs of the records of the tabs: looks at the window, whatever it shows and whenever they are, and
demands to have the records built anew.

Over a run the records stay, or what was found before is out of date
(`TabCache.keepsRecords_or_outdated`).

The records at the end of a run are those of the last look that built them, unless the window was closed
since (`TabCache.records_run_cases`). No two of them are of one tab, and what they display carries the
stamp of their frame, with their own tab as the one that was selected and settled then
(`TabCache.LastBuild`).
-/

namespace ShopLens

/-! ## what a frame builds -/

/-- The tabs with their stock are those at their indices in the window whose stock can be read. -/
theorem mem_stockedTabs_iff {window : Container} {index : Nat} {tab : Tab} {inventory : Inventory} :
    (index, tab, inventory) ∈ window.stockedTabs ↔
      window.tabs[index]? = some (some tab) ∧ tab.inventory = .ok inventory := by
  constructor
  · intro h
    obtain ⟨⟨place, i⟩, hplace, hstocked⟩ := List.mem_filterMap.mp h
    cases place with
    | none => contradiction
    | some tab' =>
        obtain ⟨inventory', hinventory, heq⟩ := Option.map_eq_some_iff.mp hstocked
        cases heq
        exact ⟨List.mem_zipIdx_iff_getElem?.mp hplace, Read.present?_eq_some_iff.mp hinventory⟩
  · rintro ⟨hplace, hinventory⟩
    refine List.mem_filterMap.mpr ⟨(some tab, index), List.mem_zipIdx_iff_getElem?.mpr hplace, ?_⟩
    simp [hinventory]

/-- What is made of some places, in their order, stands in the order of their indices. -/
theorem pairwise_lt_filterMap_zipIdx {α β : Type} {xs : List α} {f : α × Nat → Option β}
    {index : β → Nat} (h : ∀ x i y, f (x, i) = some y → index y = i) :
    ((xs.zipIdx.filterMap f).map index).Pairwise (· < ·) := by
  have hplaces : (xs.zipIdx.map Prod.snd).Pairwise (· < ·) := by
    rw [List.zipIdx_map_snd]
    exact List.pairwise_lt_range'
  rw [List.pairwise_map] at hplaces ⊢
  rw [List.pairwise_filterMap]
  refine hplaces.imp fun {a b} hlt x hx y hy => ?_
  rw [h a.1 a.2 x hx, h b.1 b.2 y hy]
  exact hlt

/-- The tabs of a window stand in the order of their indices. -/
theorem pairwise_lt_stockedTabs (window : Container) :
    (window.stockedTabs.map (·.1)).Pairwise (· < ·) := by
  refine pairwise_lt_filterMap_zipIdx fun place i entry h => ?_
  cases place with
  | none => contradiction
  | some tab =>
      obtain ⟨inventory, -, rfl⟩ := Option.map_eq_some_iff.mp h
      rfl

/-- The tabs of a window have an index each. -/
theorem nodup_stockedTabs (window : Container) : (window.stockedTabs.map (·.1)).Nodup :=
  (pairwise_lt_stockedTabs window).imp Nat.ne_of_lt

section Records

variable {previous : List TabRecord} {stamp : Stamp} {settled : Bool} {nextId : Nat}
  {tabs : List (Nat × Tab × Inventory)} {r : TabRecord}

/-- The first tab has the first record, under its old number or a new one. -/
theorem exists_recordsOf_cons (index : Nat) (tab : Tab) (inventory : Inventory) :
    ∃ id next, (recordsOf previous stamp settled nextId ((index, tab, inventory) :: tabs)).1 =
      tab.record id ⟨index, tabTitle index, inventory⟩ stamp settled ::
        (recordsOf previous stamp settled next tabs).1 := by
  rw [recordsOf]
  dsimp only
  split
  · exact ⟨_, _, rfl⟩
  · exact ⟨_, _, rfl⟩

/-- The records have the identities of the tabs, in their order. -/
theorem map_identity_recordsOf :
    (recordsOf previous stamp settled nextId tabs).1.map TabRecord.identity =
      tabs.map fun (index, _, inventory) => ⟨index, tabTitle index, inventory⟩ := by
  induction tabs generalizing nextId with
  | nil => rfl
  | cons t tabs ih =>
      obtain ⟨index, tab, inventory⟩ := t
      obtain ⟨id, next, heq⟩ := exists_recordsOf_cons index tab inventory
      rw [heq, List.map_cons, ih]
      rfl

theorem map_index_recordsOf :
    (recordsOf previous stamp settled nextId tabs).1.map TabRecord.index = tabs.map (·.1) := by
  have h := congrArg (List.map TabIdentity.index)
    (@map_identity_recordsOf previous stamp settled nextId tabs)
  rwa [List.map_map, List.map_map] at h

/-- Each record is made for one of the tabs, under its index. -/
theorem exists_tab_of_mem (h : r ∈ (recordsOf previous stamp settled nextId tabs).1) :
    ∃ index tab inventory id, (index, tab, inventory) ∈ tabs ∧
      r = tab.record id ⟨index, tabTitle index, inventory⟩ stamp settled := by
  induction tabs generalizing nextId with
  | nil => contradiction
  | cons t tabs ih =>
      obtain ⟨index, tab, inventory⟩ := t
      obtain ⟨id, next, heq⟩ := exists_recordsOf_cons index tab inventory
      rw [heq] at h
      rcases List.mem_cons.mp h with rfl | hmem
      · exact ⟨index, tab, inventory, id, .head _, rfl⟩
      · obtain ⟨index', tab', inventory', id', hmem', heq'⟩ := ih hmem
        exact ⟨index', tab', inventory', id', .tail _ hmem', heq'⟩

/-- What a frame displays is displayed on the tab that is selected and settled, under its stamp. -/
theorem displayed_of_mem_recordsOf (h : r ∈ (recordsOf previous stamp settled nextId tabs).1)
    {l : Listing} (hl : l ∈ r.displayedItems) :
    settled = true ∧ stamp.selection = some r.index ∧ l.stamp = stamp := by
  obtain ⟨index, tab, inventory, id, -, rfl⟩ := exists_tab_of_mem h
  unfold Tab.record at hl
  dsimp only at hl
  split at hl
  · next hselected =>
      obtain ⟨slot, -, hslot⟩ := List.mem_filterMap.mp hl
      obtain ⟨item, -, rfl⟩ := Option.map_eq_some_iff.mp hslot
      exact ⟨hselected.1, hselected.2, rfl⟩
  · contradiction

end Records

namespace TabCache

variable {c : TabCache} {window : Container} {now frame : Nat}

/-! ## runs -/

/-- What may happen to the records of the tabs. -/
inductive Event where
  | look (window : Container) (now : Nat)
  | invalidate

/-- The records after something happened. -/
def step (c : TabCache) : Event → TabCache
  | .look window now => c.reconcile window now
  | .invalidate => c.invalidate

/-- The records after a run. -/
def run (c : TabCache) (events : List Event) : TabCache := events.foldl step c

@[simp] theorem run_nil (c : TabCache) : c.run [] = c := rfl

@[simp] theorem run_cons (c : TabCache) (e : Event) (events : List Event) :
    c.run (e :: events) = (c.step e).run events := rfl

@[simp] theorem run_append (c : TabCache) (events more : List Event) :
    c.run (events ++ more) = (c.run events).run more := List.foldl_append

/-! ## what stays over a run -/

/-- Whether something forgets the records or has them built anew. -/
def Event.rebuilds (c : TabCache) : Event → Bool
  | look window now => c.rebuilds window now
  | invalidate => false

/-- Nothing in a run forgets the records or has them built anew. -/
def KeepsRecords : TabCache → List Event → Prop
  | _, [] => True
  | c, e :: events => e.rebuilds c = false ∧ (c.step e).KeepsRecords events

theorem step_of_not_rebuilds {e : Event} (h : e.rebuilds c = false) :
    (c.step e).records = c.records ∧ (c.step e).frame = c.frame := by
  cases e with
  | look window now => exact reconcile_of_not_rebuilds h
  | invalidate => exact ⟨rfl, rfl⟩

theorem outdated_step {e : Event} (h : c.Outdated frame) : (c.step e).Outdated frame := by
  cases e with
  | look window now => exact outdated_reconcile h
  | invalidate => exact h.imp id fun ⟨hframe, hnone, _⟩ => ⟨hframe, hnone, rfl⟩

theorem outdated_run {events : List Event} (h : c.Outdated frame) :
    (c.run events).Outdated frame := by
  induction events generalizing c with
  | nil => exact h
  | cons e events ih => exact ih (outdated_step h)

/-- Over a run that keeps them the records and the frame stay. -/
theorem run_of_keepsRecords {events : List Event} (h : c.KeepsRecords events) :
    (c.run events).records = c.records ∧ (c.run events).frame = c.frame := by
  induction events generalizing c with
  | nil => exact ⟨rfl, rfl⟩
  | cons e events ih =>
      obtain ⟨hrecords, hframe⟩ := step_of_not_rebuilds h.1
      obtain ⟨hrecords', hframe'⟩ := ih h.2
      exact ⟨hrecords'.trans hrecords, hframe'.trans hframe⟩

/-- **Over a run** the records stay, or what was found before is out of date. -/
theorem keepsRecords_or_outdated (c : TabCache) (events : List Event) :
    c.KeepsRecords events ∨ (c.run events).Outdated c.frame := by
  induction events generalizing c with
  | nil => exact .inl trivial
  | cons e events ih =>
      cases hr : e.rebuilds c with
      | true =>
          cases e with
          | look window now =>
              exact .inr (outdated_run (c := c.reconcile window now) (outdated_of_rebuilds hr))
          | invalidate => contradiction
      | false =>
          rw [← (step_of_not_rebuilds hr).2]
          exact (ih (c.step e)).imp (fun h => ⟨hr, h⟩) id

/-! ## where the records come from -/

/-- Whether a look builds the records anew. -/
def builds (c : TabCache) (window : Container) (now : Nat) : Bool :=
  window.visible && hasPassed c.refreshInterval c.lastRefresh now

theorem reconcile_of_builds (h : c.builds window now = true) :
    c.reconcile window now =
      { c with selection := c.selection.update window.selection now }.refresh window now := by
  rw [builds, Bool.and_eq_true] at h
  simp [reconcile, h.1, h.2]

/-- A look that forgets the records or builds them anew forgets them if it does not build them. -/
theorem records_reconcile_of_not_builds (h : c.rebuilds window now = true)
    (hb : c.builds window now = false) : (c.reconcile window now).records = [] := by
  rcases c.reconcile_cases window now with ⟨-, heq⟩ | ⟨hv, hp, -⟩ | ⟨hn, -⟩
  · rw [heq]
  · simp [builds, hv, hp] at hb
  · rw [hn] at h
    contradiction

/-- In a run of these events the look in the middle built the records that are there at its end. -/
structure LastBuild (c : TabCache) (events before : List Event) (window : Container) (now : Nat)
    (after : List Event) : Prop where
  eq_append : events = before ++ .look window now :: after
  builds : (c.run before).builds window now = true
  keeps : ((c.run before).reconcile window now).KeepsRecords after

/-- A run keeps the records, or leaves none, or leaves those of the last look that built them. -/
theorem records_run_cases (c : TabCache) (events : List Event) :
    c.KeepsRecords events ∨ (c.run events).records = [] ∨
      ∃ before window now after, c.LastBuild events before window now after := by
  induction events generalizing c with
  | nil => exact .inl trivial
  | cons e events ih =>
      rcases ih (c.step e) with hkeeps | hnil | ⟨before, window, now, after, hlast⟩
      · cases hr : e.rebuilds c with
        | false => exact .inl ⟨hr, hkeeps⟩
        | true =>
            cases e with
            | invalidate => contradiction
            | look window now =>
                cases hb : c.builds window now with
                | true => exact .inr (.inr ⟨[], window, now, events, rfl, hb, hkeeps⟩)
                | false =>
                    refine .inr (.inl ((run_of_keepsRecords hkeeps).1.trans ?_))
                    exact records_reconcile_of_not_builds hr hb
      · exact .inr (.inl hnil)
      · exact .inr (.inr ⟨e :: before, window, now, after,
          congrArg (e :: ·) hlast.eq_append, hlast.builds, hlast.keeps⟩)

/-- The records of a run that starts without any are those of a look that built them. -/
theorem exists_lastBuild {interval settle : Nat} {events : List Event} {r : TabRecord}
    (h : r ∈ ((new interval settle).run events).records) :
    ∃ before window now after, (new interval settle).LastBuild events before window now after := by
  rcases records_run_cases (new interval settle) events with hkeeps | hnil | hlast
  · rw [(run_of_keepsRecords hkeeps).1] at h
    contradiction
  · rw [hnil] at h
    contradiction
  · exact hlast

namespace LastBuild

variable {events before after : List Event}

theorem mem (h : c.LastBuild events before window now after) : .look window now ∈ events := by
  rw [h.eq_append]
  exact List.mem_append_right _ List.mem_cons_self

/-- The records at the end of the run. -/
theorem records_eq (h : c.LastBuild events before window now after) :
    (c.run events).records = ((c.run before).reconcile window now).records := by
  rw [h.eq_append, run_append]
  exact (run_of_keepsRecords h.keeps).1

theorem frame_eq (h : c.LastBuild events before window now after) :
    (c.run events).frame = ((c.run before).reconcile window now).frame := by
  rw [h.eq_append, run_append]
  exact (run_of_keepsRecords h.keeps).2

/-- The records are of a tab each. -/
theorem nodup_index (h : c.LastBuild events before window now after) :
    ((c.run events).records.map TabRecord.index).Nodup := by
  rw [h.records_eq, reconcile_of_builds h.builds]
  exact map_index_recordsOf ▸ nodup_stockedTabs window

/-- What the records display was displayed on the tab that was selected and settled then, under the
stamp of the frame. -/
theorem of_displayed (h : c.LastBuild events before window now after) {r : TabRecord}
    (hr : r ∈ (c.run events).records) {l : Listing} (hl : l ∈ r.displayedItems) :
    ((c.run before).reconcile window now).selection.isSettled (c.run before).settle now = true ∧
      ((c.run before).reconcile window now).selection.index = some r.index ∧
      l.stamp = ⟨(c.run events).frame, some r.index⟩ := by
  rw [h.frame_eq]
  rw [h.records_eq, reconcile_of_builds h.builds] at hr
  rw [reconcile_of_builds h.builds]
  obtain ⟨hsettled, hindex, hstamp⟩ := displayed_of_mem_recordsOf hr hl
  exact ⟨hsettled, hindex, by rw [hstamp, ← hindex]; rfl⟩

end LastBuild

end TabCache

end ShopLens
