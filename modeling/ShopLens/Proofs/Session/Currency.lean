import ShopLens.Proofs.Purchase.Calls
import ShopLens.Proofs.Purchase.Limit
import ShopLens.Proofs.Session.Runs

/-!
# ShopLens.Proofs.Session.Currency

When the item of a pass is still bought. Between a pass over the selected tab and the purchase from it
anything may happen to the session.

As long as no new settings are taken over, a purchase that drives the input finds the records of the
pass, and clicks an item that is displayed on the selected tab (`clicks_displayed_of_drives`). New
settings start the frames at one again, so what a pass found before them may pass for current after
them, in records that are not those of the pass; nothing else brings this about
(`clicks_displayed_iff`).
-/

namespace ShopLens

/-! ## what is recorded -/

namespace InputDriver

variable {σ : Type} (d : InputDriver σ)

/-- A click starts with a move of the cursor to its place. -/
theorem head?_controlClick (s : σ) (x y : Float32) :
    (controlClick d.recorded (s, []) x y).1.2.head? = some (.act (.move x y)) := by
  obtain ⟨pressed, left, right, hcut, hanswers, -⟩ := d.recorded.exists_log_controlClick (s, []) x y
  rw [hanswers.of_recorded.2]
  cases hcut <;> rfl

end InputDriver

namespace Session

variable {s : Session}

/-! ## the item of a pass -/

/-- The next item of a pass is one of its items. -/
theorem mem_of_next?_pass {key : TabKey} {items : List Listing} {hover : Option Hover} {l : Listing}
    (h : (s.pass key items hover).next? = some l) : l ∈ items := by
  simp only [HighlightPass.next?, pass, Option.map_eq_some_iff] at h
  obtain ⟨highlight, hfind, rfl⟩ := h
  obtain ⟨l', hl', rfl⟩ := List.mem_map.mp (List.mem_of_find?_eq_some hfind)
  exact (List.mem_filter.mp hl').1

/-- The next item of a pass over the selected tab is displayed there, and current. -/
theorem next?_highlightSelected {hover : Option Hover} {l : Listing}
    (h : (s.highlightSelected hover).1.next? = some l) :
    ∃ tab, s.tabs.selected? = some tab ∧ l ∈ tab.displayedItems ∧ s.tabs.isCurrent l = true ∧
      (s.highlightSelected hover).1.key = some (.tab tab.title) := by
  unfold highlightSelected at h ⊢
  by_cases he : s.settings.enable = true
  · cases ht : s.tabs.selected? with
    | none => simp [he, ht, HighlightPass.next?] at h
    | some tab =>
        simp only [he, ht, Bool.not_true, Bool.false_eq_true, if_false] at h ⊢
        have hmem := List.mem_filter.mp (mem_of_next?_pass h)
        exact ⟨tab, rfl, hmem.1, hmem.2, rfl⟩
  · simp [he, HighlightPass.next?] at h

/-- The calls of the input driver in a purchase from a pass. -/
def purchaseCalls (s : Session) {σ : Type} (pass : HighlightPass) (window : Rect) (now : Nat)
    (d : InputDriver σ) (state : σ) : List InputCall :=
  (s.purchaseNext pass window now d.recorded (state, [])).2.2.2

/-- A purchase that drives the input moves the cursor to the next item of the pass. -/
theorem purchaseCalls_ne_nil {σ : Type} {pass : HighlightPass} {window : Rect} {now : Nat}
    {d : InputDriver σ} {state : σ} (h : s.purchaseCalls pass window now d state ≠ []) :
    ∃ key l x y, pass.key = some key ∧ pass.next? = some l ∧
      (∀ title, key = .tab title → s.tabs.isCurrent l = true) ∧
      clickTarget? l.rect window = some (x, y) ∧
      (s.purchaseCalls pass window now d state).head? = some (.act (.move x y)) := by
  unfold purchaseCalls at h ⊢
  rcases s.purchaseNext_cases pass window now d.recorded (state, []) with
    heq | ⟨key, l, hkey, hnext, hcurrent, heq⟩
  · rw [heq] at h
    contradiction
  · rw [heq] at h ⊢
    rcases s.planner.purchase_cases key l window now d.recorded (state, []) with
      ⟨o, -, hidle⟩ | ⟨-, -, -, x, y, hplace, hdrive⟩
    · rw [hidle] at h
      contradiction
    · rw [hdrive]
      exact ⟨key, l, x, y, hkey, hnext, hcurrent, hplace, d.head?_controlClick state x y⟩

/-! ## currency -/

/-- The next item of a pass is displayed on the selected tab, and calls go to its place first. -/
def ClicksDisplayed (s : Session) (pass : HighlightPass) (window : Rect) (calls : List InputCall) :
    Prop :=
  ∃ tab l x y, s.tabs.selected? = some tab ∧ l ∈ tab.displayedItems ∧ pass.next? = some l ∧
    clickTarget? l.rect window = some (x, y) ∧ calls.head? = some (.act (.move x y))

section Purchases

variable {s₁ : Session} {pass : HighlightPass} {hover : Option Hover} {actions : List Action}
  {σ : Type} {window : Rect} {now : Nat} {d : InputDriver σ} {state : σ}

/-- Without new settings since the pass, a purchase that drives the input finds the records of the pass,
and clicks an item that is displayed on the selected tab. -/
theorem clicks_displayed_of_drives (hpass : s.highlightSelected hover = (pass, s₁))
    (hactions : ∀ a ∈ actions, a.isApplySettings = false)
    (h : (s₁.run actions).purchaseCalls pass window now d state ≠ []) :
    s₁.KeepsRecords actions ∧ (s₁.run actions).ClicksDisplayed pass window
      ((s₁.run actions).purchaseCalls pass window now d state) := by
  obtain ⟨rfl, rfl⟩ : (s.highlightSelected hover).1 = pass ∧ (s.highlightSelected hover).2 = s₁ :=
    ⟨congrArg Prod.fst hpass, congrArg Prod.snd hpass⟩
  obtain ⟨key, l, x, y, hkey, hnext, hcurrent, hplace, hhead⟩ := purchaseCalls_ne_nil h
  obtain ⟨tab, htab, hmem, hfresh, hkey'⟩ := next?_highlightSelected hnext
  have hcurrent := hcurrent tab.title (Option.some.inj (hkey.symm.trans hkey'))
  have hstamp : l.stamp = s.tabs.stamp := of_decide_eq_true hfresh
  have hselected : s.tabs.selection.index ≠ none := by
    intro hnone
    simp [TabCache.selected?, hnone] at htab
  rcases run_keeps_or_outdates (s := (s.highlightSelected hover).2) hactions with
    ⟨hkeeps, hrecords, -⟩ | hout
  · have hindex : ((s.highlightSelected hover).2.run actions).tabs.selection.index =
        s.tabs.selection.index := by
      have hstamp' : l.stamp = ((s.highlightSelected hover).2.run actions).tabs.stamp :=
        of_decide_eq_true hcurrent
      exact congrArg Stamp.selection (hstamp'.symm.trans hstamp)
    refine ⟨hkeeps, tab, l, x, y, ?_, hmem, hnext, hplace, hhead⟩
    rw [← htab, TabCache.selected?, TabCache.selected?, hindex, hrecords, tabs_highlightSelected]
  · rw [tabs_highlightSelected] at hout
    have hold := TabCache.isCurrent_of_outdated hout (l := l) (congrArg Stamp.frame hstamp)
      (by rw [hstamp]; exact hselected)
    rw [hold] at hcurrent
    contradiction

/-- **Currency of purchases**: whatever happened before a pass over the selected tab and since, a
purchase from the pass that drives the input finds the records of the pass and clicks an item that is
displayed on the selected tab, just when no new settings were taken over in between. -/
theorem clicks_displayed_iff (hpass : s.highlightSelected hover = (pass, s₁))
    (h : (s₁.run actions).purchaseCalls pass window now d state ≠ []) :
    (s₁.KeepsRecords actions ∧ (s₁.run actions).ClicksDisplayed pass window
        ((s₁.run actions).purchaseCalls pass window now d state)) ↔
      ∀ a ∈ actions, a.isApplySettings = false := by
  constructor
  · rintro ⟨hkeeps, -⟩ a ha
    cases hs : a.isApplySettings with
    | false => rfl
    | true => exact absurd hkeeps (not_keepsRecords_of_applySettings ha hs)
  · intro hactions
    exact clicks_displayed_of_drives hpass hactions h

end Purchases

/-! ## a selection that flickers, and new settings -/

/-- A shop window of two tabs with a ring on the first one. -/
def shopWindow (address selected : Nat) : Container where
  visible := true
  tabs :=
    [some ⟨.ok ⟨256, 1⟩, .ok true, none, none, .ok [⟨some (.ring address), shelfItem.rect, true⟩],
        .ok []⟩,
      some ⟨.ok ⟨512, 1⟩, .ok false, none, none, .ok [], .ok []⟩]
  buybackVisible := none
  buybackIndex := none
  shownIndex := some selected
  shownAddress := none
  selectedIndex := none

/-- Settings under which items are bought as soon as a tab is shown. -/
def eager : Settings := { enable := true, autoPurchase := true, selectionSettle := 0 }

/-- A session that buys everything and looks at the first tab with a ring. -/
def buyer (address : Nat) : Session :=
  ((Session.new eager).loadSources [⟨⟨"all", "all", true, .opaqueRed⟩, .loaded "true"⟩]).2.reconcile
    (shopWindow address 0) 0

/-- Input that does all it is asked for. -/
def willing : InputDriver Unit where
  act := fun _ _ => ((), .ok ())
  settle := fun _ _ => ()

/-- The other tab is selected for a moment, and the first one again before the records are built anew:
the item of the pass before is bought. -/
theorem clicks_displayed_of_flicker :
    let pass := ((buyer 1).highlightSelected none).1
    let s := ((buyer 1).highlightSelected none).2
    let actions := [Action.reconcile (shopWindow 1 1) 10, Action.reconcile (shopWindow 1 0) 20]
    let calls := (s.run actions).purchaseCalls pass gameWindow 20 willing ()
    calls ≠ [] ∧ ((s.KeepsRecords actions ∧ (s.run actions).ClicksDisplayed pass gameWindow calls) ↔
      ∀ a ∈ actions, a.isApplySettings = false) :=
  ⟨by decide +kernel, clicks_displayed_iff (Prod.eta _).symm (by decide +kernel)⟩

/-- Settings are taken over, and the window is looked at again: the first tab now holds another ring in
the first frame of new records, and the ring that the pass found is clicked all the same. -/
theorem clicks_after_applySettings :
    let pass := ((buyer 1).highlightSelected none).1
    let s := ((buyer 1).highlightSelected none).2
    let actions := [Action.applySettings eager, Action.reconcile (shopWindow 2 0) 1000]
    let calls := (s.run actions).purchaseCalls pass gameWindow 1000 willing ()
    calls ≠ [] ∧ ¬ s.KeepsRecords actions ∧
      ¬ (s.run actions).ClicksDisplayed pass gameWindow calls := by
  intro pass s actions calls
  have hnext : pass.next?.map Listing.address = some 1 := by decide +kernel
  have hshown : ((s.run actions).tabs.selected?.map fun tab =>
      tab.displayedItems.map Listing.address) = some [2] := by decide +kernel
  refine ⟨by decide +kernel, not_keepsRecords_of_applySettings List.mem_cons_self rfl, ?_⟩
  rintro ⟨tab, l, x, y, htab, hmem, hl, -⟩
  rw [hl] at hnext
  rw [htab] at hshown
  have haddress : l.address ∈ [2] := by
    rw [← Option.some.inj hshown]
    exact List.mem_map_of_mem hmem
  rw [Option.some.inj hnext] at haddress
  contradiction

end Session

end ShopLens
