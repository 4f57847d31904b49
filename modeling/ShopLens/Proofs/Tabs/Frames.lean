import ShopLens.Tabs.Cache

/-!
# ShopLens.Proofs.Tabs.Frames

What a look at the window does to the records and to the number of the frame. It leaves both alone,
builds the records anew in the next frame, or forgets them because the window is closed
(`TabCache.reconcile_cases`).

After either of the latter two, items of the frame before are out of date, and no look at any window
makes them current again (`TabCache.Outdated`): the number of the frame never goes down, and a window
that was closed has no selection until its records are built anew.
-/

namespace ShopLens

/-- A closed window has no selection. -/
theorem Container.selection_of_not_visible {window : Container} (h : window.visible = false) :
    window.selection = ⟨none, .noWindow⟩ := by
  simp [selection, h]

namespace TabCache

variable {c : TabCache} {window : Container} {now frame : Nat}

/-- Whether a look at the window forgets the records or builds them anew. -/
def rebuilds (c : TabCache) (window : Container) (now : Nat) : Bool :=
  !window.visible || hasPassed c.refreshInterval c.lastRefresh now

/-- **What a look at the window does**: the window is closed and its records are forgotten, the records
are built anew, or they stay. -/
theorem reconcile_cases (c : TabCache) (window : Container) (now : Nat) :
    (window.visible = false ∧ c.reconcile window now =
        { c with
          selection := c.selection.update window.selection now
          records := []
          lastRefresh := none }) ∨
      (window.visible = true ∧ hasPassed c.refreshInterval c.lastRefresh now = true ∧
        c.reconcile window now =
          { c with selection := c.selection.update window.selection now }.refresh window now) ∨
      (c.rebuilds window now = false ∧ c.reconcile window now =
        { c with selection := c.selection.update window.selection now }) := by
  unfold reconcile rebuilds
  by_cases hv : window.visible = true
  · by_cases hp : hasPassed c.refreshInterval c.lastRefresh now = true
    · exact .inr (.inl ⟨hv, hp, by simp [hv, hp]⟩)
    · exact .inr (.inr ⟨by simp [hv, hp], by simp [hv, hp]⟩)
  · exact .inl ⟨by simpa using hv, by simp [hv, clear]⟩

/-- Whatever a look at the window does, the interval between two looks stays. -/
@[simp] theorem refreshInterval_reconcile (c : TabCache) (window : Container) (now : Nat) :
    (c.reconcile window now).refreshInterval = c.refreshInterval := by
  rcases c.reconcile_cases window now with ⟨-, heq⟩ | ⟨-, -, heq⟩ | ⟨-, heq⟩ <;> rw [heq]
  rfl

/-- Whatever a look at the window does, the time stays until a selection is settled. -/
@[simp] theorem settle_reconcile (c : TabCache) (window : Container) (now : Nat) :
    (c.reconcile window now).settle = c.settle := by
  rcases c.reconcile_cases window now with ⟨-, heq⟩ | ⟨-, -, heq⟩ | ⟨-, heq⟩ <;> rw [heq]
  rfl

/-- Without building them anew the records and the frame stay. -/
theorem reconcile_of_not_rebuilds (h : c.rebuilds window now = false) :
    (c.reconcile window now).records = c.records ∧
      (c.reconcile window now).frame = c.frame := by
  rcases c.reconcile_cases window now with ⟨hv, -⟩ | ⟨-, hp, -⟩ | ⟨-, heq⟩
  · simp [rebuilds, hv] at h
  · simp [rebuilds, hp] at h
  · rw [heq]
    exact ⟨rfl, rfl⟩

/-- The number of the frame never goes down. -/
theorem frame_le_reconcile : c.frame ≤ (c.reconcile window now).frame := by
  rcases c.reconcile_cases window now with ⟨-, heq⟩ | ⟨-, -, heq⟩ | ⟨-, heq⟩
  · exact Nat.le_of_eq (congrArg TabCache.frame heq).symm
  · rw [heq]
    exact Nat.le_succ _
  · exact Nat.le_of_eq (congrArg TabCache.frame heq).symm

/-! ## items out of date -/

/-- Items of a frame are out of date: a later frame has come, or the window was closed and its records
were not built anew yet. -/
def Outdated (frame : Nat) (c : TabCache) : Prop :=
  frame < c.frame ∨ c.frame = frame ∧ c.selection.index = none ∧ c.lastRefresh = none

/-- What is out of date is not current, if a tab was selected. -/
theorem isCurrent_of_outdated (h : c.Outdated frame) {l : Listing} (hf : l.stamp.frame = frame)
    (hs : l.stamp.selection ≠ none) : c.isCurrent l = false := by
  refine decide_eq_false fun heq => ?_
  rw [heq] at hf hs
  rcases h with hlt | ⟨-, hnone, -⟩
  · exact absurd hf (Nat.ne_of_gt hlt)
  · exact hs hnone

/-- Once the records are forgotten or built anew, the items before are out of date. -/
theorem outdated_of_rebuilds (h : c.rebuilds window now = true) :
    (c.reconcile window now).Outdated c.frame := by
  rcases c.reconcile_cases window now with ⟨hv, heq⟩ | ⟨-, -, heq⟩ | ⟨hn, -⟩
  · rw [heq]
    exact .inr ⟨rfl, congrArg Selection.index (Container.selection_of_not_visible hv), rfl⟩
  · rw [heq]
    exact .inl (Nat.lt_succ_self _)
  · rw [hn] at h
    contradiction

/-- What is out of date stays so. -/
theorem outdated_reconcile (h : c.Outdated frame) : (c.reconcile window now).Outdated frame := by
  rcases h with hlt | ⟨heq, -, hlast⟩
  · exact .inl (Nat.lt_of_lt_of_le hlt frame_le_reconcile)
  · have hrebuilds : c.rebuilds window now = true := by simp [rebuilds, hlast]
    exact heq ▸ outdated_of_rebuilds hrebuilds

end TabCache

end ShopLens
