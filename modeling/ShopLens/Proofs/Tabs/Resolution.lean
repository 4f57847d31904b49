import ShopLens.Proofs.Tabs.Runs

/-!
# ShopLens.Proofs.Tabs.Resolution

How the selected tab of a shop window is found. What each signal concludes from a window is said without
the searches (`Container.Concludes`): an index has to name a place for tabs that the buyback panel does not
take, and any other signal has to hold of one such tab and no more.

The signals are asked in a fixed order, and the first that is conclusive gives the selected tab and the
reason; a tab that is found is therefore never the buyback panel (`Container.selection_decided`).
-/

namespace ShopLens

namespace Container

variable {c : Container}

/-! ## what a signal concludes -/

/-- There is a place for a tab at an index, and the buyback panel does not take it. -/
structure HasPlace (c : Container) (i : Nat) : Prop where
  lt_length : i < c.tabs.length
  ne_buyback : c.buybackIndex ≠ some i

/-- The tab at an index can be read, and is not the buyback panel. -/
structure HasTab (c : Container) (i : Nat) (tab : Tab) : Prop where
  getElem?_eq : c.tabs[i]? = some (some tab)
  ne_buyback : c.buybackIndex ≠ some i

/-- The tab at an index has a property, and no other tab that can be read has it, the buyback panel
apart. -/
structure HasOnly (c : Container) (P : Tab → Prop) (i : Nat) : Prop where
  exists_tab : ∃ tab, c.HasTab i tab ∧ P tab
  eq_of_tab : ∀ {j tab}, c.HasTab j tab → P tab → j = i

/-- A signal is conclusive, and this is its conclusion: that no tab is selected, or the tab at an index. -/
def Concludes (c : Container) : SelectionReason → Option Nat → Prop
  | .buybackVisible, none => c.buybackVisible = some true
  | .shownIndex, some i => c.shownIndex = some (i : Int) ∧ c.HasPlace i
  | .shownAddress, some i => ∃ address, c.shownAddress = some address ∧ address ≠ 0 ∧
      c.HasOnly (fun tab => ∃ inventory, tab.inventory = .ok inventory ∧
        inventory.address = address) i
  | .headerSelected, some i => c.HasOnly (·.headerSelected = some true) i
  | .gridVisible, some i => c.HasOnly (·.visible = .ok true) i
  | .selectedIndex, some i => c.selectedIndex = some (i : Int) ∧ c.HasPlace i
  | _, _ => False

/-- The signals, in the order in which they are asked. -/
def cascade : List SelectionReason :=
  [.buybackVisible, .shownIndex, .shownAddress, .headerSelected, .gridVisible, .selectedIndex]

/-- A signal is the first that is conclusive, and this is its conclusion. -/
def Decides (c : Container) (reason : SelectionReason) (index : Option Nat) : Prop :=
  c.Concludes reason index ∧ ∃ before after, cascade = before ++ reason :: after ∧
    ∀ r ∈ before, ∀ i, ¬ c.Concludes r i

/-! ## places and tabs -/

theorem tradeIndex?_eq_some_iff {n : Int} {i : Nat} :
    c.tradeIndex? n = some i ↔ n = i ∧ c.HasPlace i := by
  unfold tradeIndex?
  split
  · next h =>
      obtain ⟨hnonneg, hlength, hbuyback⟩ := h
      rw [Option.some_inj]
      constructor
      · rintro rfl
        exact ⟨(Int.toNat_of_nonneg hnonneg).symm, hlength, hbuyback⟩
      · rintro ⟨rfl, -⟩
        exact Int.toNat_natCast i
  · next h =>
      refine iff_of_false nofun ?_
      rintro ⟨rfl, hplace⟩
      exact h ⟨Int.natCast_nonneg i, hplace.lt_length, hplace.ne_buyback⟩

theorem mem_tradeTabs_iff {i : Nat} {tab : Tab} : (i, tab) ∈ c.tradeTabs ↔ c.HasTab i tab := by
  rw [tradeTabs, List.mem_filterMap]
  constructor
  · rintro ⟨⟨place, j⟩, hplace, h⟩
    dsimp only at h
    split at h
    · contradiction
    · next hbuyback =>
        obtain ⟨tab', rfl, heq⟩ := Option.map_eq_some_iff.mp h
        cases heq
        exact ⟨List.mem_zipIdx_iff_getElem?.mp hplace, hbuyback⟩
  · intro h
    refine ⟨(some tab, i), List.mem_zipIdx_iff_getElem?.mpr h.getElem?_eq, ?_⟩
    exact if_neg h.ne_buyback

/-- The tabs that can be read stand in the order of their indices. -/
theorem pairwise_lt_tradeTabs (c : Container) : c.tradeTabs.Pairwise (·.1 < ·.1) := by
  rw [← List.pairwise_map]
  refine pairwise_lt_filterMap_zipIdx fun place i entry h => ?_
  dsimp only at h
  split at h
  · contradiction
  · obtain ⟨tab, -, rfl⟩ := Option.map_eq_some_iff.mp h
    rfl

theorem onlyTab?_eq_some_iff {p : Tab → Bool} {i : Nat} :
    c.onlyTab? p = some i ↔ c.HasOnly (p · = true) i := by
  unfold onlyTab?
  generalize hhits : c.tradeTabs.filter _ = hits
  have hmem (entry : Nat × Tab) :
      entry ∈ hits ↔ c.HasTab entry.1 entry.2 ∧ p entry.2 = true := by
    rw [← hhits, List.mem_filter, mem_tradeTabs_iff]
  have hordered : hits.Pairwise (·.1 < ·.1) := hhits ▸ c.pairwise_lt_tradeTabs.filter _
  rcases hits with _ | ⟨first, _ | ⟨second, rest⟩⟩
  · refine iff_of_false nofun fun honly => ?_
    obtain ⟨tab, htab⟩ := honly.exists_tab
    exact List.not_mem_nil ((hmem (i, tab)).mpr htab)
  · have hfirst := (hmem first).mp List.mem_cons_self
    constructor
    · rintro ⟨⟩
      refine ⟨⟨first.2, hfirst⟩, fun {j tab} htab hp => ?_⟩
      have hsame := List.mem_singleton.mp ((hmem (j, tab)).mpr ⟨htab, hp⟩)
      exact congrArg Prod.fst hsame
    · intro honly
      exact congrArg some (honly.eq_of_tab hfirst.1 hfirst.2)
  · -- two tabs with the property have two indices, and only one index is allowed
    refine iff_of_false nofun fun honly => ?_
    have hfirst := (hmem first).mp List.mem_cons_self
    have hsecond := (hmem second).mp (List.mem_cons_of_mem _ List.mem_cons_self)
    have hlt := List.rel_of_pairwise_cons hordered List.mem_cons_self
    rw [honly.eq_of_tab hfirst.1 hfirst.2, honly.eq_of_tab hsecond.1 hsecond.2] at hlt
    exact Nat.lt_irrefl i hlt

/-! ## signals -/

theorem bind_tradeIndex?_eq_some_iff {n : Option Int} {i : Nat} :
    n.bind c.tradeIndex? = some i ↔ n = some (i : Int) ∧ c.HasPlace i := by
  rw [Option.bind_eq_some_iff]
  constructor
  · rintro ⟨n, rfl, hn⟩
    obtain ⟨rfl, hplace⟩ := tradeIndex?_eq_some_iff.mp hn
    exact ⟨rfl, hplace⟩
  · rintro ⟨rfl, hplace⟩
    exact ⟨i, rfl, tradeIndex?_eq_some_iff.mpr ⟨rfl, hplace⟩⟩

theorem shownTab?_eq_some_iff {i : Nat} :
    c.shownTab? = some i ↔ c.Concludes .shownAddress (some i) := by
  have hstock (tab : Tab) (address : Nat) :
      tab.inventory.present?.any (·.address == address) = true ↔
        ∃ inventory, tab.inventory = .ok inventory ∧ inventory.address = address := by
    cases tab.inventory <;> simp [Read.present?]
  unfold shownTab? Concludes
  split
  · next h => simp [h]
  · next address h =>
      split
      · next hzero => simp [h, hzero]
      · next hne => simp [h, hne, onlyTab?_eq_some_iff, hstock]

/-- What a signal concludes from a window, if it is conclusive. -/
def conclusion? (c : Container) : SelectionReason → Option (Option Nat)
  | .buybackVisible => if c.buybackVisible = some true then some none else none
  | .shownIndex => (c.shownIndex.bind c.tradeIndex?).map some
  | .shownAddress => c.shownTab?.map some
  | .headerSelected => (c.onlyTab? (·.headerSelected == some true)).map some
  | .gridVisible => (c.onlyTab? fun tab => tab.visible.present? == some true).map some
  | .selectedIndex => (c.selectedIndex.bind c.tradeIndex?).map some
  | .exhausted => none
  | .noWindow => none

theorem conclusion?_eq_some_iff {reason : SelectionReason} {index : Option Nat} :
    c.conclusion? reason = some index ↔ c.Concludes reason index := by
  have hgrid (tab : Tab) : tab.visible.present? = some true ↔ tab.visible = .ok true :=
    Read.present?_eq_some_iff
  have hsome (found : Option Nat) (i : Nat) : found.map some = some (some i) ↔ found = some i := by
    simp
  have hnone (found : Option Nat) : ¬ found.map some = some none := by simp
  cases reason <;> cases index
  case buybackVisible.none => simp [conclusion?, Concludes]
  case shownIndex.some i => rw [conclusion?, hsome, bind_tradeIndex?_eq_some_iff, Concludes]
  case shownAddress.some i => rw [conclusion?, hsome, shownTab?_eq_some_iff]
  case headerSelected.some i =>
    simp only [conclusion?, hsome, onlyTab?_eq_some_iff, beq_iff_eq, Concludes]
  case gridVisible.some i =>
    simp only [conclusion?, hsome, onlyTab?_eq_some_iff, beq_iff_eq, hgrid, Concludes]
  case selectedIndex.some i => rw [conclusion?, hsome, bind_tradeIndex?_eq_some_iff, Concludes]
  case exhausted.none | exhausted.some | noWindow.none | noWindow.some =>
    exact iff_of_false nofun nofun
  case buybackVisible.some => simp [conclusion?, Concludes]
  all_goals exact iff_of_false (hnone _) nofun

theorem conclusion?_eq_none_iff {reason : SelectionReason} :
    c.conclusion? reason = none ↔ ∀ index, ¬ c.Concludes reason index := by
  simp only [← conclusion?_eq_some_iff, Option.eq_none_iff_forall_ne_some, ne_eq]

/-! ## conclusions -/

theorem HasOnly.hasPlace {P : Tab → Prop} {i : Nat} (h : c.HasOnly P i) : c.HasPlace i := by
  obtain ⟨tab, htab, -⟩ := h.exists_tab
  exact ⟨(List.getElem?_eq_some_iff.mp htab.getElem?_eq).1, htab.ne_buyback⟩

namespace Concludes

variable {reason : SelectionReason} {index : Option Nat}

/-- A tab is never found in the place of the buyback panel. -/
theorem hasPlace {i : Nat} (h : c.Concludes reason (some i)) : c.HasPlace i := by
  cases reason with
  | shownIndex => exact h.2
  | shownAddress =>
      obtain ⟨address, -, -, honly⟩ := h
      exact honly.hasPlace
  | headerSelected => exact HasOnly.hasPlace h
  | gridVisible => exact HasOnly.hasPlace h
  | selectedIndex => exact h.2
  | buybackVisible | exhausted | noWindow => contradiction

/-- Only an open buyback panel is conclusive without a tab. -/
theorem isSome_iff (h : c.Concludes reason index) :
    index.isSome = true ↔ reason ∉ [.noWindow, .buybackVisible, .exhausted] := by
  cases index with
  | none =>
      cases reason with
      | buybackVisible => decide
      | _ => contradiction
  | some i =>
      cases reason with
      | buybackVisible | exhausted | noWindow => contradiction
      | _ => exact iff_of_true rfl (by decide)

end Concludes

/-! ## the cascade -/

/-- The first conclusion, with the signal that it comes from. -/
def firstConclusion? (c : Container) : Option Selection :=
  cascade.findSome? fun reason => (c.conclusion? reason).map (Selection.mk · reason)

theorem firstConclusion?_eq_some_iff {index : Option Nat} {reason : SelectionReason} :
    c.firstConclusion? = some ⟨index, reason⟩ ↔ c.Decides reason index := by
  rw [firstConclusion?, List.findSome?_eq_some_iff]
  simp only [Option.map_eq_some_iff, Option.map_eq_none_iff, conclusion?_eq_none_iff]
  constructor
  · rintro ⟨before, reason', after, hcascade, ⟨index', hindex, heq⟩, hbefore⟩
    cases heq
    exact ⟨conclusion?_eq_some_iff.mp hindex, before, after, hcascade, hbefore⟩
  · rintro ⟨hconcludes, before, after, hcascade, hbefore⟩
    exact ⟨before, reason, after, hcascade, ⟨index, conclusion?_eq_some_iff.mpr hconcludes, rfl⟩,
      hbefore⟩

theorem firstConclusion?_eq_none_iff :
    c.firstConclusion? = none ↔ ∀ r ∈ cascade, ∀ i, ¬ c.Concludes r i := by
  simp only [firstConclusion?, List.findSome?_eq_none_iff, Option.map_eq_none_iff,
    conclusion?_eq_none_iff]

/-- The selection of an open window is the first conclusion. -/
theorem selection_of_visible (h : c.visible = true) :
    c.selection = c.firstConclusion?.getD ⟨none, .exhausted⟩ := by
  by_cases hbuyback : c.buybackVisible = some true
  · simp [selection, h, hbuyback, firstConclusion?, cascade, conclusion?]
  · have hsignals : c.firstConclusion? =
        (signals.findSome? fun s => (s.2 c).map (·, s.1)).map fun found => ⟨some found.1, found.2⟩ := by
      rw [firstConclusion?, List.map_findSome?]
      simp only [cascade, signals, List.findSome?_cons, conclusion?, if_neg hbuyback,
        Function.comp_apply, Option.map_map, Option.map_none]
      rfl
    rw [hsignals, selection, h, if_neg (by decide), if_neg hbuyback]
    split
    · next index reason hfound =>
        have hfirst : (signals.findSome? fun s => (s.2 c).map (·, s.1)) = some (index, reason) := hfound
        rw [hfirst]
        rfl
    · next hnone =>
        have hfirst : (signals.findSome? fun s => (s.2 c).map (·, s.1)) = none := hnone
        rw [hfirst]
        rfl

theorem selection_eq_iff (h : c.visible = true) {index : Option Nat} {reason : SelectionReason} :
    c.selection = ⟨index, reason⟩ ↔ c.Decides reason index ∨
      reason = .exhausted ∧ index = none ∧ ∀ r ∈ cascade, ∀ i, ¬ c.Concludes r i := by
  rw [selection_of_visible h, ← firstConclusion?_eq_some_iff, ← firstConclusion?_eq_none_iff]
  cases c.firstConclusion? with
  | none => simp [eq_comm, and_comm]
  | some s => simp

/-- Every selection was concluded by its reason, or none was. -/
theorem selection_cases (c : Container) :
    c.Concludes c.selection.reason c.selection.index ∨ c.selection = ⟨none, .exhausted⟩ ∨
      c.selection = ⟨none, .noWindow⟩ := by
  cases hvisible : c.visible with
  | false => exact .inr (.inr (selection_of_not_visible hvisible))
  | true =>
      cases hselection : c.selection with
      | mk index reason =>
          rcases (selection_eq_iff hvisible).mp hselection with hdecides | ⟨rfl, rfl, -⟩
          · exact .inl hdecides.1
          · exact .inr (.inl rfl)

/-- **The selected tab** is never the buyback panel, and there is one unless the window is closed, shows
its buyback panel, or no signal is conclusive. Of an open window the first conclusive signal decides. -/
theorem selection_decided (c : Container) :
    (∀ i, c.selection.index = some i → i < c.tabs.length ∧ c.buybackIndex ≠ some i) ∧
      (c.selection.index.isSome = true ↔
        c.selection.reason ∉ [.noWindow, .buybackVisible, .exhausted]) ∧
      (c.visible = false → c.selection = ⟨none, .noWindow⟩) ∧
      (c.visible = true → ∀ index reason, c.selection = ⟨index, reason⟩ ↔
        c.Decides reason index ∨
          reason = .exhausted ∧ index = none ∧ ∀ r ∈ cascade, ∀ i, ¬ c.Concludes r i) := by
  refine ⟨fun i hi => ?_, ?_, selection_of_not_visible, fun h _ _ => selection_eq_iff h⟩
  · rcases c.selection_cases with hconcludes | hnone | hnone
    · rw [hi] at hconcludes
      exact ⟨hconcludes.hasPlace.lt_length, hconcludes.hasPlace.ne_buyback⟩
    · rw [hnone] at hi
      contradiction
    · rw [hnone] at hi
      contradiction
  · rcases c.selection_cases with hconcludes | hnone | hnone
    · exact hconcludes.isSome_iff
    · rw [hnone]
      decide
    · rw [hnone]
      decide

/-- Two headers are selected, and the buyback panel takes the place that the window gives as its shown one;
one grid is visible. -/
theorem selection_of_two_headers :
    let tab : Tab := ⟨.ok ⟨256, 1⟩, .ok false, none, some true, .ok [], .ok []⟩
    let shown : Tab := ⟨.error (.unavailable "stock"), .ok true, none, none, .ok [], .ok []⟩
    let c : Container := ⟨true, [some tab, none, some tab, some shown], none, some 1, some 1, some 0, none⟩
    c.visible = true ∧ c.selection.index = some 3 ∧ c.buybackIndex ≠ some 3 ∧
      c.Decides .gridVisible (some 3) := by
  intro tab shown c
  have hselection : c.selection = ⟨some 3, .gridVisible⟩ := by decide
  obtain ⟨hplace, -, -, hfirst⟩ := selection_decided c
  refine ⟨rfl, by rw [hselection], (hplace 3 (by rw [hselection])).2, ?_⟩
  rcases (hfirst rfl _ _).mp hselection with hdecides | ⟨hreason, -⟩
  · exact hdecides
  · contradiction

end Container

end ShopLens
