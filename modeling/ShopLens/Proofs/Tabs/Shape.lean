import Mathlib.Algebra.Group.Nat.Defs
import ShopLens.Proofs.Tabs.Currency
import ShopLens.Proofs.Tabs.Histories

/-!
# ShopLens.Proofs.Tabs.Shape

What the records look like. A frame makes each record from the tab at its index, and each listing on it
from an item of that tab that was known then (`TabRecord.Shows`). The records stay as they are until they
are built again or forgotten, so in every state of a history they show the window of the last look that
built them, under the stamp of its frame (`TabCache.records_show`).

The number of a tab has 32 bits, so it is the index of the tab in windows of at most 2^31 tabs; beyond
them it would become negative, like the numbers of the lists of a vendor.
-/

namespace ShopLens

/-! ## one record -/

/-- An index of at most 31 bits is the number of its tab. -/
theorem tabNumber_of_lt {index : Nat} (h : index < 2 ^ 31) : tabNumber index = index :=
  Int.bmod_eq_of_le (by omega) (by omega)

theorem Item.isResolved_iff (i : Item) :
    i.isResolved = true ↔ i.address ≠ 0 ∧ i.valid = true ∧ i.path ≠ none := by
  simp [isResolved, isLive, Option.isSome_iff_ne_none, and_assoc]

/-- A listing is of a known item with a path, under the number of its tab and a stamp. -/
structure Listing.IsOn (l : Listing) (index : Nat) (stamp : Stamp) : Prop where
  tab_eq : l.tab = index
  ne_offersTab : l.tab ≠ offersTab
  ne_buybackTab : l.tab ≠ buybackTab
  address_ne_zero : l.address ≠ 0
  valid : l.item.valid = true
  path_ne_none : l.item.path ≠ none
  stamp_eq : l.stamp = stamp

namespace Listing

variable {item : Item} {index : Nat} {stamp : Stamp}

theorem isOn_reported (kind : Kind) (h : index < 2 ^ 31) (hitem : item.isResolved = true) :
    (reported item kind (tabNumber index) stamp).IsOn index stamp := by
  obtain ⟨haddress, hvalid, hpath⟩ := item.isResolved_iff.mp hitem
  rw [tabNumber_of_lt h]
  exact ⟨rfl, nofun, nofun, haddress, hvalid, hpath, rfl⟩

theorem isOn_shown (kind : Kind) (rect : Rect) (h : index < 2 ^ 31) (hitem : item.isResolved = true) :
    (shown item kind rect (tabNumber index) stamp).IsOn index stamp := by
  obtain ⟨haddress, hvalid, hpath⟩ := item.isResolved_iff.mp hitem
  rw [tabNumber_of_lt h]
  exact ⟨rfl, nofun, nofun, haddress, hvalid, hpath, rfl⟩

end Listing

/-- A record shows a tab in the frame with a stamp: the items that the server reports, which are not laid
out, and the items in its visible slots, if the tab is the selected one. -/
structure TabRecord.Shows (r : TabRecord) (tab : Tab) (stamp : Stamp) : Prop where
  title_eq : r.title = tabTitle r.index
  server_isOn : ∀ l ∈ r.serverItems, l.IsOn r.index stamp
  server_mem : ∀ l ∈ r.serverItems, l.item ∈ tab.server.orEmpty
  server_hidden : ∀ l ∈ r.serverItems, l.displayed = false ∧ l.rect = .zero
  displayed_isOn : ∀ l ∈ r.displayedItems, l.IsOn r.index stamp
  displayed_mem : ∀ l ∈ r.displayedItems, ⟨some l.item, l.rect, true⟩ ∈ tab.displayed.orEmpty
  displayed_shown : ∀ l ∈ r.displayedItems, l.displayed = true
  selected : r.displayedItems ≠ [] → stamp.selection = some r.index

namespace Tab

variable {tab : Tab} {index : Nat} {stamp : Stamp} {l : Listing}

theorem exists_item_of_mem (h : l ∈ tab.serverListings index stamp) :
    ∃ item ∈ tab.server.orEmpty, item.isResolved = true ∧
      l = .reported item .shopItem (tabNumber index) stamp := by
  obtain ⟨item, hitem, rfl⟩ := List.mem_map.mp h
  obtain ⟨hmem, hresolved⟩ := List.mem_filter.mp hitem
  exact ⟨item, hmem, hresolved, rfl⟩

theorem exists_slot_of_mem (h : l ∈ tab.displayedListings index stamp) :
    ∃ slot ∈ tab.displayed.orEmpty, slot.visible = true ∧
      ∃ item, slot.item = some item ∧ item.isResolved = true ∧
        l = .shown item .shopItem slot.rect (tabNumber index) stamp := by
  obtain ⟨slot, hslot, hlisting⟩ := List.mem_filterMap.mp h
  obtain ⟨hmem, hvisible⟩ := List.mem_filter.mp hslot
  obtain ⟨item, hitem, rfl⟩ := Option.map_eq_some_iff.mp hlisting
  obtain ⟨hitem, hresolved⟩ := Option.filter_eq_some_iff.mp hitem
  exact ⟨slot, hmem, hvisible, item, hitem, hresolved, rfl⟩

theorem mem_displayedItems_record {id : Nat} {identity : TabIdentity} {settled : Bool}
    (h : l ∈ (tab.record id identity stamp settled).displayedItems) :
    stamp.selection = some identity.index ∧ l ∈ tab.displayedListings identity.index stamp := by
  unfold record at h
  dsimp only at h
  split at h
  · next hselected => exact ⟨hselected.2, h⟩
  · contradiction

/-- The record that a frame makes of a tab shows it. -/
theorem shows_record (id : Nat) (inventory : Inventory) (settled : Bool) (h : index < 2 ^ 31) :
    (tab.record id ⟨index, tabTitle index, inventory⟩ stamp settled).Shows tab stamp where
  title_eq := rfl
  server_isOn := by
    intro l hl
    obtain ⟨item, -, hresolved, rfl⟩ := exists_item_of_mem hl
    exact Listing.isOn_reported .shopItem h hresolved
  server_mem := by
    intro l hl
    obtain ⟨item, hitem, -, rfl⟩ := exists_item_of_mem hl
    exact hitem
  server_hidden := by
    intro l hl
    obtain ⟨item, -, -, rfl⟩ := exists_item_of_mem hl
    exact ⟨rfl, rfl⟩
  displayed_isOn := by
    intro l hl
    obtain ⟨slot, -, -, item, -, hresolved, rfl⟩ := exists_slot_of_mem (mem_displayedItems_record hl).2
    exact Listing.isOn_shown .shopItem slot.rect h hresolved
  displayed_mem := by
    intro l hl
    obtain ⟨slot, hslot, hvisible, item, hitem, -, rfl⟩ :=
      exists_slot_of_mem (mem_displayedItems_record hl).2
    obtain ⟨content, rect, visible⟩ := slot
    cases hitem
    cases hvisible
    exact hslot
  displayed_shown := by
    intro l hl
    obtain ⟨slot, -, -, item, -, -, rfl⟩ := exists_slot_of_mem (mem_displayedItems_record hl).2
    rfl
  selected := by
    intro hne
    obtain ⟨l, hl⟩ := List.exists_mem_of_ne_nil _ hne
    exact (mem_displayedItems_record hl).1

end Tab

namespace TabCache

/-! ## all records of a state -/

variable {interval settle : Nat} {ops : List Op}

/-- **The shape of the records.** In every state of a history with windows of at most 2^31 tabs the
records stand in the order of their indices. There are none, or each of them shows the tab at its index
in the window of the last look that built them, under the stamp of the frame now and of the selection
then. -/
theorem records_show
    (hsize : ∀ window now, .event (.look window now) ∈ ops → window.tabs.length ≤ 2 ^ 31) :
    let c := (new interval settle).performAll ops
    (c.records.map TabRecord.index).Pairwise (· < ·) ∧
      (c.records = [] ∨ ∃ before window now after,
        (new interval settle).LastRefresh ops before window now after ∧
          ∀ r ∈ c.records, ∃ tab, window.tabs[r.index]? = some (some tab) ∧
            r.Shows tab ⟨c.frame, window.selection.index⟩) := by
  intro c
  by_cases hnil : c.records = []
  · exact ⟨by simp [hnil], .inl hnil⟩
  · obtain ⟨r, hr⟩ := List.exists_mem_of_ne_nil _ hnil
    obtain ⟨before, window, now, after, hlast⟩ := exists_lastRefresh hr
    have hrecords : c.records = _ := hlast.records_eq
    have hframe : c.frame = _ := hlast.frame_eq
    rw [reconcile_of_builds hlast.builds] at hrecords hframe
    constructor
    · rw [hrecords]
      exact map_index_recordsOf ▸ pairwise_lt_stockedTabs window
    · refine .inr ⟨before, window, now, after, hlast, fun r hr => ?_⟩
      rw [hrecords] at hr
      obtain ⟨index, tab, inventory, id, htab, rfl⟩ := exists_tab_of_mem hr
      have hplace : window.tabs[index]? = some (some tab) := (mem_stockedTabs_iff.mp htab).1
      obtain ⟨hlt, -⟩ := List.getElem?_eq_some_iff.mp hplace
      have hindex : index < 2 ^ 31 := Nat.lt_of_lt_of_le hlt (hsize window now hlast.mem)
      refine ⟨tab, hplace, ?_⟩
      rw [hframe]
      exact Tab.shows_record id inventory _ hindex

/-- A shop that is looked at again after its records were forgotten, and once more with the other tab
selected: its records show what was found when they were built, the rings that the server reports of both
tabs and the one that is laid out on the first. -/
theorem records_show_of_shop :
    let ops := [Op.event (.look (shop 0) 0), .clear, .event (.look (shop 0) 150),
      .event (.look (shop 1) 160)]
    let c := (new 50 120).performAll ops
    (∀ window now, .event (.look window now) ∈ ops → window.tabs.length ≤ 2 ^ 31) ∧
      (c.records.map (·.serverItems.map Listing.address) = [[2], [2]] ∧
        c.records.map (·.displayedItems.map Listing.address) = [[1], []]) ∧
      ∃ before window now after, (new 50 120).LastRefresh ops before window now after ∧
        ∀ r ∈ c.records, ∃ tab, window.tabs[r.index]? = some (some tab) ∧
          r.Shows tab ⟨c.frame, window.selection.index⟩ := by
  intro ops c
  have hshop (selected : Nat) : (shop selected).tabs.length ≤ 2 ^ 31 := by
    show 2 ≤ 2 ^ 31
    decide
  have hsize : ∀ window now, .event (.look window now) ∈ ops → window.tabs.length ≤ 2 ^ 31 := by
    intro window now hmem
    simp only [ops, List.mem_cons, List.not_mem_nil, Op.event.injEq, Event.look.injEq, reduceCtorEq,
      or_false, false_or] at hmem
    rcases hmem with ⟨rfl, -⟩ | ⟨rfl, -⟩ | ⟨rfl, -⟩ <;> exact hshop _
  have hserver : c.records.map (·.serverItems.map Listing.address) = [[2], [2]] := by
    decide +kernel
  have hdisplayed : c.records.map (·.displayedItems.map Listing.address) = [[1], []] := by
    decide +kernel
  refine ⟨hsize, ⟨hserver, hdisplayed⟩, ?_⟩
  rcases (records_show hsize).2 with hnil | hshow
  · have hnone : c.records = [] := hnil
    rw [hnone] at hserver
    contradiction
  · exact hshow

end TabCache

end ShopLens
