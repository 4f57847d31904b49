import Mathlib.Data.List.Induction
import ShopLens.Proofs.Session.Runs

/-!
# ShopLens.Proofs.Session.Rewards

The two windows with rewards. They are treated alike, and differ in the kind of the listings and in where
what was read is kept (`RewardGrid`).

A pass over such a window may frame what was read in an earlier one. Over any run what is kept is nothing,
or the listings of an open window that was handed over in one of the passes of the run
(`RewardGrid.isReadIn_run`).
-/

namespace ShopLens

open Session (Action)

/-! ## what leaves rewards alone -/

namespace Session

variable (s : Session)

theorem rewards_noteToggleKey (down : Bool) (now : Nat) :
    (s.noteToggleKey down now).2.rewards = s.rewards := by
  rcases s.noteToggleKey_cases down now with ⟨toggle, heq⟩ | ⟨autoPurchase, toggle, heq⟩
  · rw [heq]
  · rw [heq]

theorem rewards_reload (load : List RuleEntry → Except RuleError LoadedRules) :
    (s.reload load).2.rewards = s.rewards := by
  rcases s.reload_cases load with heq | ⟨rules, sources, heq⟩
  · rw [heq]
  · rw [heq]
    rfl

theorem rewards_highlightSelected (hover : Option Hover) :
    (s.highlightSelected hover).2.rewards = s.rewards := by
  rcases s.highlightSelected_cases hover with heq | ⟨title, heq⟩
  · rw [heq]
  · rw [heq]

theorem rewards_purchaseNext {σ : Type} (pass : HighlightPass) (window : Rect) (now : Nat)
    (d : InputDriver σ) (state : σ) :
    (s.purchaseNext pass window now d state).2.1.rewards = s.rewards := by
  rcases s.purchaseNext_cases pass window now d state with heq | ⟨key, l, -, -, -, heq⟩
  · rw [heq]
  · rw [heq]

end Session

/-! ## one look -/

namespace RewardSnapshot

variable {s : RewardSnapshot} {interval now : Nat} {kind : Listing.Kind} {w : RewardWindow}

theorem update_of_not_visible (h : w.visible = false) : s.update interval kind w now = {} := by
  simp [update, h]

theorem update_of_visible (h : w.visible = true) : s.update interval kind w now =
    if hasPassed interval s.takenAt now then ⟨some now, w.listings kind⟩ else s := by
  simp [update, h]

end RewardSnapshot

/-! ## the windows -/

/-- The windows with rewards. -/
inductive RewardGrid where
  | quest
  | ritual
deriving DecidableEq

namespace RewardGrid

/-- The kind of the listings. -/
def kind : RewardGrid → Listing.Kind
  | quest => .questReward
  | ritual => .ritualReward

/-- What was last read. -/
def snapshot (c : RewardCache) : RewardGrid → RewardSnapshot
  | quest => c.quest
  | ritual => c.ritual

/-- A pass over the window, as something that happens to a session. -/
def look (window : RewardWindow) (now : Nat) (hover : Option Hover) : RewardGrid → Action
  | quest => .highlightQuest window now hover
  | ritual => .highlightRitual window now hover

/-- The frames of such a pass. -/
def frames (s : Session) (window : RewardWindow) (now : Nat) (hover : Option Hover) :
    RewardGrid → List Highlight
  | quest => (s.highlightQuest window now hover).1
  | ritual => (s.highlightRitual window now hover).1

variable {s : Session} {window : RewardWindow} {now : Nat} {hover : Option Hover}
  {actions : List Action}

theorem frames_of_enable (g : RewardGrid) (h : s.settings.enable = true) :
    g.frames s window now hover = s.frameRewards
      ((g.snapshot s.rewards).update s.rewards.interval g.kind window now).items hover := by
  cases g with
  | quest => simp [frames, Session.highlightQuest, h, RewardCache.updateQuest, snapshot, kind]
  | ritual => simp [frames, Session.highlightRitual, h, RewardCache.updateRitual, snapshot, kind]

theorem frames_of_not_enable (g : RewardGrid) (h : s.settings.enable = false) :
    g.frames s window now hover = [] := by
  cases g with
  | quest => simp [frames, Session.highlightQuest, h]
  | ritual => simp [frames, Session.highlightRitual, h]

/-! ## what is kept -/

/-- These listings are of an open window that was handed over in a pass among these actions; or there are
none. -/
def IsReadIn (g : RewardGrid) (actions : List Action) (items : List Listing) : Prop :=
  items = [] ∨ ∃ window, (∃ now hover, g.look window now hover ∈ actions) ∧ window.visible = true ∧
    items = window.listings g.kind

theorem IsReadIn.mono {g : RewardGrid} {more : List Action} {items : List Listing}
    (h : g.IsReadIn actions items) (hsub : actions ⊆ more) : g.IsReadIn more items :=
  h.imp_right fun ⟨window, ⟨now, hover, hmem⟩, hopen⟩ =>
    ⟨window, ⟨now, hover, hsub hmem⟩, hopen⟩

/-- With another look nothing is kept, what was kept before, or what the open window shows. -/
theorem update_cases (snapshot : RewardSnapshot) (interval : Nat) (kind : Listing.Kind)
    (window : RewardWindow) (now : Nat) :
    snapshot.update interval kind window now = {} ∨
      snapshot.update interval kind window now = snapshot ∨
      window.visible = true ∧
        (snapshot.update interval kind window now).items = window.listings kind := by
  cases hopen : window.visible with
  | false => exact .inl (RewardSnapshot.update_of_not_visible hopen)
  | true =>
      rw [RewardSnapshot.update_of_visible hopen]
      split
      · exact .inr (.inr ⟨rfl, rfl⟩)
      · exact .inr (.inl rfl)

/-- What is framed in a pass was read in it, or it is what is kept. -/
theorem isReadIn_update {g : RewardGrid} {snapshot : RewardSnapshot} {interval : Nat}
    (h : g.IsReadIn actions snapshot.items) :
    g.IsReadIn (actions ++ [g.look window now hover])
      (snapshot.update interval g.kind window now).items := by
  rcases update_cases snapshot interval g.kind window now with hnone | hkept | ⟨hopen, hitems⟩
  · rw [hnone]
    exact .inl rfl
  · rw [hkept]
    exact h.mono (List.subset_append_left _ _)
  · rw [hitems]
    exact .inr ⟨window, ⟨now, hover, List.mem_append_right _ List.mem_cons_self⟩, hopen, rfl⟩

/-- A look at the window reads it into what is kept of it, if the session is switched on. -/
theorem snapshot_look (g : RewardGrid) (s : Session) (window : RewardWindow) (now : Nat)
    (hover : Option Hover) :
    g.snapshot (s.step (g.look window now hover)).rewards =
      if s.settings.enable then
        (g.snapshot s.rewards).update s.rewards.interval g.kind window now
      else g.snapshot s.rewards := by
  cases g with
  | quest =>
      cases henable : s.settings.enable <;>
        simp [look, Session.step, Session.highlightQuest, henable, RewardCache.updateQuest, snapshot,
          kind]
  | ritual =>
      cases henable : s.settings.enable <;>
        simp [look, Session.step, Session.highlightRitual, henable, RewardCache.updateRitual, snapshot,
          kind]

/-- Whatever else happens, what is kept of the window stays or is forgotten. -/
theorem snapshot_step (g : RewardGrid) (s : Session) (a : Action) :
    (∃ window now hover, a = g.look window now hover) ∨
      g.snapshot (s.step a).rewards = g.snapshot s.rewards ∨ g.snapshot (s.step a).rewards = {} := by
  cases a with
  | applySettings settings => cases g <;> exact .inr (.inr rfl)
  | noteToggleKey down now => exact .inr (.inl (by rw [Session.step, s.rewards_noteToggleKey]))
  | loadSources sources => exact .inr (.inl rfl)
  | reload load => exact .inr (.inl (by rw [Session.step, s.rewards_reload]))
  | reconcile window now => exact .inr (.inl rfl)
  | highlightSelected hover => exact .inr (.inl (by rw [Session.step, s.rewards_highlightSelected]))
  | highlightQuest window now hover =>
      cases g with
      | quest => exact .inl ⟨window, now, hover, rfl⟩
      | ritual =>
          obtain ⟨quest, heq⟩ := s.exists_highlightQuest window now hover
          exact .inr (.inl (by rw [Session.step, heq]; rfl))
  | highlightRitual window now hover =>
      cases g with
      | quest =>
          obtain ⟨ritual, heq⟩ := s.exists_highlightRitual window now hover
          exact .inr (.inl (by rw [Session.step, heq]; rfl))
      | ritual => exact .inl ⟨window, now, hover, rfl⟩
  | purchaseNext pass window now d state =>
      exact .inr (.inl (by rw [Session.step, s.rewards_purchaseNext]))

/-- **What is kept of a window** at any moment of a session was read in an earlier pass. -/
theorem isReadIn_run (g : RewardGrid) (compiler : Filter.Compiler) (settings : Settings)
    (actions : List Action) :
    g.IsReadIn actions
      (g.snapshot ((Session.withCompiler compiler settings).run actions).rewards).items := by
  induction actions using List.reverseRecOn with
  | nil => cases g <;> exact .inl rfl
  | append_singleton actions a ih =>
      have hkept := ih.mono (List.subset_append_left actions [a])
      rw [Session.run, List.foldl_append, List.foldl_cons, List.foldl_nil, ← Session.run]
      rcases g.snapshot_step ((Session.withCompiler compiler settings).run actions) a with
        ⟨window, now, hover, rfl⟩ | hstays | hnone
      · rw [snapshot_look]
        split
        · exact isReadIn_update ih
        · exact hkept
      · rw [hstays]
        exact hkept
      · rw [hnone]
        exact .inl rfl

end RewardGrid

end ShopLens
