import Mathlib.Data.List.Nodup
import ShopLens.Proofs.Tabs.Currency
import ShopLens.Proofs.Tabs.Histories

/-!
# ShopLens.Proofs.Tabs.Identity

The numbers of the records, and what they stand for. A frame makes one record for each tab whose stock
can be read, with the index and the stock of that tab (`TabRecord.BuiltFrom`). It gives the tab the number
of the record before it with the same identity, or a number that no record has had (`id_cases`). Two facts
carry this through every history:

* `TabCache.Numbered` — the records have different numbers, all of them below the next free one;
* `TabCache.Reserves` — a number that was given out belongs to one identity from then on, also after its
  record is gone.

So a number tells the identity of its tab for good, and between two frames in a row a tab keeps its
number just when it shows the same stock, as the server answered it (`TabCache.id_eq_iff_identity_eq`).
-/

namespace ShopLens

/-! ## the tabs that have records -/

/-- A window has a tab at an index, and what can be read of it is this stock. -/
def Container.Stocks (window : Container) (index : Nat) (inventory : Inventory) : Prop :=
  ∃ tab, window.tabs[index]? = some (some tab) ∧ tab.inventory = .ok inventory

/-- The identities of the tabs of a window whose stock can be read, in the order of the tabs. -/
def Container.identities (window : Container) : List TabIdentity :=
  window.stockedTabs.map fun (index, _, inventory) => ⟨index, tabTitle index, inventory⟩

/-- Records that are those of a window: its tabs whose stock can be read have one record each, in their
order and under their identities, and nothing else has a record. -/
structure TabRecord.BuiltFrom (records : List TabRecord) (window : Container) : Prop where
  map_identity : records.map TabRecord.identity = window.identities
  exists_iff : ∀ index inventory,
    (∃ r ∈ records, r.identity = ⟨index, tabTitle index, inventory⟩) ↔ window.Stocks index inventory

theorem Container.mem_identities_iff {window : Container} {index : Nat} {inventory : Inventory} :
    ⟨index, tabTitle index, inventory⟩ ∈ window.identities ↔ window.Stocks index inventory := by
  simp only [identities, List.mem_map, Prod.exists, TabIdentity.mk.injEq]
  constructor
  · rintro ⟨index', tab, inventory', hmem, rfl, -, rfl⟩
    exact ⟨tab, mem_stockedTabs_iff.mp hmem⟩
  · rintro ⟨tab, htab⟩
    exact ⟨index, tab, inventory, mem_stockedTabs_iff.mpr htab, rfl, rfl, rfl⟩

theorem TabRecord.builtFrom_of_map_identity {records : List TabRecord} {window : Container}
    (h : records.map identity = window.identities) : BuiltFrom records window where
  map_identity := h
  exists_iff := by
    intro index inventory
    rw [← Container.mem_identities_iff, ← h, List.mem_map]

/-! ## the numbers of one frame -/

section Records

variable {previous : List TabRecord} {stamp : Stamp} {settled : Bool} {nextId : Nat}
  {tabs : List (Nat × Tab × Inventory)} {r : TabRecord} {identity : TabIdentity} {id : Nat}

theorem exists_of_priorId? (h : priorId? previous identity = some id) :
    ∃ old ∈ previous, old.identity = identity ∧ old.id = id := by
  obtain ⟨old, hfind, rfl⟩ := Option.map_eq_some_iff.mp h
  exact ⟨old, List.mem_of_find?_eq_some hfind, by simpa using List.find?_some hfind, rfl⟩

theorem ne_of_priorId?_eq_none (h : priorId? previous identity = none) :
    ∀ old ∈ previous, old.identity ≠ identity := by
  simpa [priorId?] using h

theorem recordsOf_cons_of_some (index : Nat) (tab : Tab) (inventory : Inventory)
    (h : priorId? previous ⟨index, tabTitle index, inventory⟩ = some id) :
    recordsOf previous stamp settled nextId ((index, tab, inventory) :: tabs) =
      (tab.record id ⟨index, tabTitle index, inventory⟩ stamp settled ::
          (recordsOf previous stamp settled nextId tabs).1,
        (recordsOf previous stamp settled nextId tabs).2) := by
  simp [recordsOf, h]

theorem recordsOf_cons_of_none (index : Nat) (tab : Tab) (inventory : Inventory)
    (h : priorId? previous ⟨index, tabTitle index, inventory⟩ = none) :
    recordsOf previous stamp settled nextId ((index, tab, inventory) :: tabs) =
      (tab.record nextId ⟨index, tabTitle index, inventory⟩ stamp settled ::
          (recordsOf previous stamp settled (nextId + 1) tabs).1,
        (recordsOf previous stamp settled (nextId + 1) tabs).2) := by
  simp [recordsOf, h]

/-- Numbers that are free stay free or are given out in their order. -/
theorem le_recordsOf : nextId ≤ (recordsOf previous stamp settled nextId tabs).2 := by
  induction tabs generalizing nextId with
  | nil => exact Nat.le_refl _
  | cons t tabs ih =>
      obtain ⟨index, tab, inventory⟩ := t
      cases h : priorId? previous ⟨index, tabTitle index, inventory⟩ with
      | some id =>
          rw [recordsOf_cons_of_some index tab inventory h]
          exact ih
      | none =>
          rw [recordsOf_cons_of_none index tab inventory h]
          exact Nat.le_of_succ_le ih

/-- **The number of a record** is that of a record before with the same identity, or a new one if there is
none. -/
theorem id_cases (h : r ∈ (recordsOf previous stamp settled nextId tabs).1) :
    (∃ old ∈ previous, old.identity = r.identity ∧ old.id = r.id) ∨
      (∀ old ∈ previous, old.identity ≠ r.identity) ∧ nextId ≤ r.id ∧
        r.id < (recordsOf previous stamp settled nextId tabs).2 := by
  induction tabs generalizing nextId with
  | nil => contradiction
  | cons t tabs ih =>
      obtain ⟨index, tab, inventory⟩ := t
      cases hprior : priorId? previous ⟨index, tabTitle index, inventory⟩ with
      | some id =>
          rw [recordsOf_cons_of_some index tab inventory hprior] at h ⊢
          rcases List.mem_cons.mp h with rfl | hmem
          · exact .inl (exists_of_priorId? hprior)
          · exact ih hmem
      | none =>
          rw [recordsOf_cons_of_none index tab inventory hprior] at h ⊢
          rcases List.mem_cons.mp h with rfl | hmem
          · exact .inr ⟨ne_of_priorId?_eq_none hprior, Nat.le_refl _, le_recordsOf⟩
          · exact (ih hmem).imp id fun ⟨hne, hle, hlt⟩ => ⟨hne, Nat.le_of_succ_le hle, hlt⟩

/-- A number of a record before goes to no tab at another index. -/
theorem id_ne_of_mem {old : TabRecord} (hnodup : (previous.map TabRecord.id).Nodup)
    (hlt : ∀ old ∈ previous, old.id < nextId) (hold : old ∈ previous)
    (hindex : old.index ∉ tabs.map (·.1))
    (hr : r ∈ (recordsOf previous stamp settled nextId tabs).1) : r.id ≠ old.id := by
  intro hid
  rcases id_cases hr with ⟨old', hold', hidentity, hid'⟩ | ⟨-, hle, -⟩
  · -- the record has the number of the same old one, so it is of the same tab
    have hsame : old' = old := List.inj_on_of_nodup_map hnodup hold' hold (hid'.trans hid)
    have heq : r.index = old.index := by rw [TabRecord.index, ← hidentity, hsame, TabRecord.index]
    rw [← heq, ← map_index_recordsOf] at hindex
    exact hindex (List.mem_map_of_mem hr)
  · exact absurd (hlt old hold) (Nat.not_lt.mpr (hid ▸ hle))

/-- A number that was given out in a frame is given out to no tab behind. -/
theorem id_ne_of_next (hlt : ∀ old ∈ previous, old.id < nextId)
    (hr : r ∈ (recordsOf previous stamp settled (nextId + 1) tabs).1) : r.id ≠ nextId := by
  rcases id_cases hr with ⟨old, hold, -, hid⟩ | ⟨-, hle, -⟩
  · exact hid ▸ Nat.ne_of_lt (hlt old hold)
  · exact Nat.ne_of_gt hle

/-- No two records of a frame share a number, if no two before it do. -/
theorem nodup_id_recordsOf (hnodup : (previous.map TabRecord.id).Nodup)
    (hlt : ∀ old ∈ previous, old.id < nextId) (htabs : (tabs.map (·.1)).Nodup) :
    ((recordsOf previous stamp settled nextId tabs).1.map TabRecord.id).Nodup := by
  induction tabs generalizing nextId with
  | nil => exact List.nodup_nil
  | cons t tabs ih =>
      obtain ⟨index, tab, inventory⟩ := t
      rw [List.map_cons, List.nodup_cons] at htabs
      cases hprior : priorId? previous ⟨index, tabTitle index, inventory⟩ with
      | some id =>
          rw [recordsOf_cons_of_some index tab inventory hprior, List.map_cons, List.nodup_cons]
          refine ⟨fun hmem => ?_, ih hlt htabs.2⟩
          obtain ⟨r, hr, hid⟩ := List.mem_map.mp hmem
          obtain ⟨old, hold, hidentity, rfl⟩ := exists_of_priorId? hprior
          have hindex : old.index = index := congrArg TabIdentity.index hidentity
          exact id_ne_of_mem hnodup hlt hold (hindex ▸ htabs.1) hr hid
      | none =>
          rw [recordsOf_cons_of_none index tab inventory hprior, List.map_cons, List.nodup_cons]
          refine ⟨fun hmem => ?_, ih (fun old hold => Nat.lt_succ_of_lt (hlt old hold)) htabs.2⟩
          obtain ⟨r, hr, hid⟩ := List.mem_map.mp hmem
          exact id_ne_of_next hlt hr hid

end Records

namespace TabCache

variable {c : TabCache} {window : Container} {now id : Nat} {identity : TabIdentity}
  {r r' : TabRecord}

/-! ## the numbers of a state -/

/-- A look that builds the records makes them of the tabs of the window. -/
theorem exists_recordsOf (h : c.builds window now = true) :
    ∃ stamp settled,
      (c.reconcile window now).records =
          (recordsOf c.records stamp settled c.nextId window.stockedTabs).1 ∧
        (c.reconcile window now).nextId =
          (recordsOf c.records stamp settled c.nextId window.stockedTabs).2 := by
  rw [reconcile_of_builds h]
  exact ⟨_, _, rfl, rfl⟩

/-- So the records are those of the window. -/
theorem builtFrom_reconcile (h : c.builds window now = true) :
    TabRecord.BuiltFrom (c.reconcile window now).records window := by
  obtain ⟨stamp, settled, hrecords, -⟩ := exists_recordsOf h
  exact TabRecord.builtFrom_of_map_identity (hrecords ▸ map_identity_recordsOf)

/-- No two records are of one tab or have one number, and all numbers are below the next free one. -/
structure Numbered (c : TabCache) : Prop where
  nodup_index : (c.records.map TabRecord.index).Nodup
  nodup_id : (c.records.map TabRecord.id).Nodup
  id_lt : ∀ r ∈ c.records, r.id < c.nextId

theorem numbered_of_nil (h : c.records = []) : c.Numbered := by
  constructor <;> simp [h]

theorem numbered_perform (h : c.Numbered) (op : Op) : (c.perform op).Numbered := by
  rcases c.perform_cases op with ⟨window, now, rfl, hbuilds⟩ | ⟨hnext, hnil | hsame⟩
  · obtain ⟨stamp, settled, hrecords, hnext⟩ := exists_recordsOf hbuilds
    show (c.reconcile window now).Numbered
    constructor
    · rw [hrecords, map_index_recordsOf]
      exact nodup_stockedTabs window
    · rw [hrecords]
      exact nodup_id_recordsOf h.nodup_id h.id_lt (nodup_stockedTabs window)
    · rw [hrecords, hnext]
      intro r hr
      rcases id_cases hr with ⟨old, hold, -, hid⟩ | ⟨-, -, hlt⟩
      · exact hid ▸ Nat.lt_of_lt_of_le (h.id_lt old hold) le_recordsOf
      · exact hlt
  · exact numbered_of_nil hnil
  · constructor
    · exact hsame ▸ h.nodup_index
    · exact hsame ▸ h.nodup_id
    · rw [hsame, hnext]
      exact h.id_lt

theorem numbered_performAll (h : c.Numbered) (ops : List Op) : (c.performAll ops).Numbered := by
  induction ops generalizing c with
  | nil => exact h
  | cons op ops ih => exact ih (numbered_perform h op)

/-- A number was given out, and only records with one identity may have it. -/
structure Reserves (c : TabCache) (id : Nat) (identity : TabIdentity) : Prop where
  id_lt : id < c.nextId
  identity_eq : ∀ r ∈ c.records, r.id = id → r.identity = identity

theorem Numbered.reserves (h : c.Numbered) (hr : r ∈ c.records) : c.Reserves r.id r.identity where
  id_lt := h.id_lt r hr
  identity_eq := by
    intro r' hr' hid
    rw [List.inj_on_of_nodup_map h.nodup_id hr' hr hid]

theorem reserves_perform (h : c.Reserves id identity) (op : Op) :
    (c.perform op).Reserves id identity := by
  rcases c.perform_cases op with ⟨window, now, rfl, hbuilds⟩ | ⟨hnext, hrecords⟩
  · obtain ⟨stamp, settled, hrecords, hnext⟩ := exists_recordsOf hbuilds
    show (c.reconcile window now).Reserves id identity
    constructor
    · rw [hnext]
      exact Nat.lt_of_lt_of_le h.id_lt le_recordsOf
    · rw [hrecords]
      intro r hr hid
      rcases id_cases hr with ⟨old, hold, hidentity, hid'⟩ | ⟨-, hle, -⟩
      · exact hidentity ▸ h.identity_eq old hold (hid'.trans hid)
      · exact absurd h.id_lt (Nat.not_lt.mpr (hid ▸ hle))
  · constructor
    · exact hnext ▸ h.id_lt
    · rcases hrecords with hnil | hsame
      · simp [hnil]
      · exact hsame ▸ h.identity_eq

theorem reserves_performAll (h : c.Reserves id identity) (ops : List Op) :
    (c.performAll ops).Reserves id identity := by
  induction ops generalizing c with
  | nil => exact h
  | cons op ops ih => exact ih (reserves_perform h op)

/-- What had a number in an earlier state has it for good. -/
theorem Numbered.reserves_of_prefix {earlier ops : List Op} (h : c.Numbered) (hearlier : earlier <+: ops)
    (hr : r ∈ (c.performAll earlier).records) : (c.performAll ops).Reserves r.id r.identity := by
  obtain ⟨later, rfl⟩ := hearlier
  rw [performAll_append]
  exact reserves_performAll ((numbered_performAll h earlier).reserves hr) later

/-- The records of a state are those of the window of the look that built them. -/
theorem LastRefresh.builtFrom {ops before : List Op} {after : List Event}
    (h : c.LastRefresh ops before window now after) :
    TabRecord.BuiltFrom (c.performAll ops).records window :=
  h.records_eq ▸ builtFrom_reconcile h.builds

/-! ## from one state to another -/

/-- The records of two frames in a row have the same number just when they have the same identity. -/
theorem Numbered.id_eq_iff (h : c.Numbered) (hbuilds : c.builds window now = true)
    (hr : r ∈ c.records) (hr' : r' ∈ (c.reconcile window now).records) :
    r'.id = r.id ↔ r'.identity = r.identity := by
  obtain ⟨stamp, settled, hrecords, -⟩ := exists_recordsOf hbuilds
  rw [hrecords] at hr'
  rcases id_cases hr' with ⟨old, hold, hidentity, hid⟩ | ⟨hne, hle, -⟩
  · rw [← hid, ← hidentity]
    constructor
    · intro heq
      rw [List.inj_on_of_nodup_map h.nodup_id hold hr heq]
    · intro heq
      rw [List.inj_on_of_nodup_map h.nodup_index hold hr (congrArg TabIdentity.index heq)]
  · exact iff_of_false (Nat.ne_of_gt (Nat.lt_of_lt_of_le (h.id_lt r hr) hle)) (hne r hr).symm

/-- A tab with a new identity gets a number that is free. -/
theorem le_id_of_new (hbuilds : c.builds window now = true)
    (hr' : r' ∈ (c.reconcile window now).records)
    (hnew : ∀ r ∈ c.records, r.identity ≠ r'.identity) : c.nextId ≤ r'.id := by
  obtain ⟨stamp, settled, hrecords, -⟩ := exists_recordsOf hbuilds
  rw [hrecords] at hr'
  rcases id_cases hr' with ⟨old, hold, hidentity, -⟩ | ⟨-, hle, -⟩
  · exact absurd hidentity (hnew old hold)
  · exact hle

/-- From one frame to the next a tab keeps its number just when it shows the same stock. -/
theorem Numbered.exists_ids {window₀ : Container} (h : c.Numbered)
    (hbefore : TabRecord.BuiltFrom c.records window₀) (hbuilds : c.builds window now = true)
    {index : Nat} {inventory₀ inventory : Inventory} (h₀ : window₀.Stocks index inventory₀)
    (h₁ : window.Stocks index inventory) :
    ∃ r ∈ c.records, ∃ r' ∈ (c.reconcile window now).records,
      r.index = index ∧ r'.index = index ∧ (r'.id = r.id ↔ inventory = inventory₀) := by
  obtain ⟨r, hr, hidentity⟩ := (hbefore.exists_iff index inventory₀).mpr h₀
  obtain ⟨r', hr', hidentity'⟩ :=
    ((builtFrom_reconcile hbuilds).exists_iff index inventory).mpr h₁
  have hid := h.id_eq_iff hbuilds hr hr'
  rw [hidentity, hidentity', TabIdentity.mk.injEq] at hid
  refine ⟨r, hr, r', hr', ?_, ?_, ?_⟩
  · rw [TabRecord.index, hidentity]
  · rw [TabRecord.index, hidentity']
  · simpa using hid

/-- **Identity of tabs.** In every state of a history the numbers of the records are different and below
the next free one, a number has belonged to no other identity in any state before, and the records, if
there are any, are those of the window of the last look that built them. When the records are built, they
are those of the window that is looked at: a tab has the number that it had in the frame before just when
it has the same identity, that is, when it shows the same stock as in the window before, and a tab with a
new identity gets a number that no record has had in any state before. -/
theorem id_eq_iff_identity_eq (interval settle : Nat) (ops : List Op) :
    let start := new interval settle
    let c := start.performAll ops
    (c.records.map TabRecord.id).Nodup ∧ (∀ r ∈ c.records, r.id < c.nextId) ∧
      (∀ earlier, earlier <+: ops → ∀ r ∈ (start.performAll earlier).records,
        ∀ r' ∈ c.records, r'.id = r.id → r'.identity = r.identity) ∧
      (c.records = [] ∨ ∃ before window₀ now₀ after,
        start.LastRefresh ops before window₀ now₀ after ∧ TabRecord.BuiltFrom c.records window₀) ∧
      ∀ window now, c.builds window now = true →
        TabRecord.BuiltFrom (c.reconcile window now).records window ∧
        (∀ before window₀ now₀ after, start.LastRefresh ops before window₀ now₀ after →
          (∀ r ∈ ((start.performAll before).reconcile window₀ now₀).records,
            ∀ r' ∈ (c.reconcile window now).records, r'.id = r.id ↔ r'.identity = r.identity) ∧
          ∀ index inventory₀ inventory,
            window₀.Stocks index inventory₀ → window.Stocks index inventory →
              ∃ r ∈ ((start.performAll before).reconcile window₀ now₀).records,
                ∃ r' ∈ (c.reconcile window now).records,
                  r.index = index ∧ r'.index = index ∧ (r'.id = r.id ↔ inventory = inventory₀)) ∧
        ∀ r' ∈ (c.reconcile window now).records, (∀ r ∈ c.records, r.identity ≠ r'.identity) →
          ∀ earlier, earlier <+: ops → ∀ r ∈ (start.performAll earlier).records, r.id ≠ r'.id := by
  intro start c
  have hstart : start.Numbered := numbered_of_nil rfl
  have hc : c.Numbered := numbered_performAll hstart ops
  refine ⟨hc.nodup_id, hc.id_lt, ?_, ?_, fun window now hbuilds =>
    ⟨builtFrom_reconcile hbuilds, ?_, ?_⟩⟩
  · intro earlier hearlier r hr
    exact (hstart.reserves_of_prefix hearlier hr).identity_eq
  · by_cases hnil : c.records = []
    · exact .inl hnil
    · obtain ⟨r, hr⟩ := List.exists_mem_of_ne_nil _ hnil
      obtain ⟨before, window₀, now₀, after, hlast⟩ := exists_lastRefresh hr
      exact .inr ⟨before, window₀, now₀, after, hlast, hlast.builtFrom⟩
  · intro before window₀ now₀ after hlast
    rw [← hlast.records_eq]
    refine ⟨fun r hr r' hr' => hc.id_eq_iff hbuilds hr hr', ?_⟩
    intro index inventory₀ inventory
    exact hc.exists_ids hlast.builtFrom hbuilds
  · intro r' hr' hnew earlier hearlier r hr
    have hlt := (hstart.reserves_of_prefix hearlier hr).id_lt
    exact Nat.ne_of_lt (Nat.lt_of_lt_of_le hlt (le_id_of_new hbuilds hr' hnew))

/-- The shop after the server answered for its second tab. -/
def restocked : Container :=
  { shop 0 with tabs := [some (ringTab ⟨256, 1⟩), some (ringTab ⟨512, 2⟩)] }

/-- A shop is looked at, and again after the server answered for its second tab: the first tab keeps its
number, and the second one gets a number that no tab had. -/
theorem ids_of_restocked :
    let c := (new 50 120).performAll [.event (.look (shop 0) 0)]
    let c' := c.reconcile restocked 60
    c.records.map TabRecord.id = [1, 2] ∧ c'.records.map TabRecord.id = [1, 3] ∧
      c.builds restocked 60 = true ∧
      (∃ r ∈ c.records, ∃ r' ∈ c'.records, r.index = 0 ∧ r'.index = 0 ∧ r'.id = r.id) ∧
      (∃ r ∈ c.records, ∃ r' ∈ c'.records, r.index = 1 ∧ r'.index = 1 ∧ r'.id ≠ r.id) ∧
      TabRecord.BuiltFrom c'.records restocked := by
  intro c c'
  have hbuilds : c.builds restocked 60 = true := by decide +kernel
  have hlast : (new 50 120).LastRefresh [.event (.look (shop 0) 0)] [] (shop 0) 0 [] :=
    ⟨rfl, by decide +kernel, trivial⟩
  obtain ⟨-, -, -, -, hframes⟩ := id_eq_iff_identity_eq 50 120 [.event (.look (shop 0) 0)]
  obtain ⟨hbuilt, htabs, -⟩ := hframes restocked 60 hbuilds
  obtain ⟨-, hids⟩ := htabs [] (shop 0) 0 [] hlast
  refine ⟨by decide +kernel, by decide +kernel, hbuilds, ?_, ?_, hbuilt⟩
  · obtain ⟨r, hr, r', hr', hindex, hindex', hid⟩ :=
      hids 0 ⟨256, 1⟩ ⟨256, 1⟩ ⟨_, rfl, rfl⟩ ⟨_, rfl, rfl⟩
    exact ⟨r, hr, r', hr', hindex, hindex', hid.mpr rfl⟩
  · obtain ⟨r, hr, r', hr', hindex, hindex', hid⟩ :=
      hids 1 ⟨512, 1⟩ ⟨512, 2⟩ ⟨_, rfl, rfl⟩ ⟨_, rfl, rfl⟩
    exact ⟨r, hr, r', hr', hindex, hindex', mt hid.mp (by decide)⟩

end TabCache

end ShopLens
