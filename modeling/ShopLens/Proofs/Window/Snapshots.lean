import ShopLens.Proofs.History
import ShopLens.Proofs.Session.Rewards

/-!
# ShopLens.Proofs.Window.Snapshots

What is answered for the windows with rewards, said of the calls before and not of what the cache holds.

That a call reads its window is said without the cache too: the answer is another one if the window holds
something else (`RewardCache.Reads`). After any calls the cache holds, for each kind of window, what the
last call that read one found, or nothing if the window was not seen open since it was closed
(`RewardCache.snapshot_after_cases`); the calls of the other kind make no difference
(`RewardCache.snapshot_after_filter`). From these two follows when a call reads and what it answers
(`RewardCache.answer_timely`).
-/

namespace ShopLens

/-- A look at a window with rewards, for what it holds. -/
structure RewardCall where
  grid : RewardGrid
  window : RewardWindow
  now : Nat

/-- The same look at a window that holds something else. -/
def RewardCall.holding (r : RewardCall) (slots : Read (List Slot)) : RewardCall :=
  { r with window := { r.window with slots } }

/-! ## what a window holds -/

namespace RewardWindow

/-- Every reward is of a known item, in the one grid of the window. -/
theorem of_mem_listings {w : RewardWindow} {kind : Listing.Kind} {l : Listing}
    (h : l ∈ w.listings kind) :
    l.kind = kind ∧ l.tab = 0 ∧ l.item.valid = true ∧ l.item.address ≠ 0 := by
  obtain ⟨slot, -, hslot⟩ := List.mem_filterMap.mp h
  obtain ⟨item, hitem, rfl⟩ := Option.map_eq_some_iff.mp hslot
  obtain ⟨-, hlive⟩ := Option.filter_eq_some_iff.mp hitem
  rw [Item.isLive, Bool.and_eq_true, bne_iff_ne] at hlive
  exact ⟨rfl, rfl, hlive.2, hlive.1⟩

/-- Any window can hold something else. -/
theorem exists_listings_ne (w : RewardWindow) (kind : Listing.Kind) :
    ∃ slots, ({ w with slots } : RewardWindow).listings kind ≠ w.listings kind := by
  cases hlistings : w.listings kind with
  | cons l rest => exact ⟨.ok [], nofun⟩
  | nil =>
      exact ⟨.ok [⟨some (.ring 1), .zero, true⟩], nofun⟩

end RewardWindow

namespace RewardCache

/-! ## runs -/

/-- The cache after a call. -/
def call (c : RewardCache) (r : RewardCall) : RewardCache :=
  match r.grid with
  | .quest => c.updateQuest r.window r.now
  | .ritual => c.updateRitual r.window r.now

/-- The cache after some calls. -/
def after (interval : Nat) (past : List RewardCall) : RewardCache := past.foldl call { interval }

/-- What a call answers that follows others. -/
def answer (interval : Nat) (past : List RewardCall) (r : RewardCall) : List Listing :=
  (r.grid.snapshot ((after interval past).call r)).items

/-- A call that follows others reads its window: the answer depends on what the window holds. -/
def Reads (interval : Nat) (past : List RewardCall) (r : RewardCall) : Prop :=
  ∃ slots, answer interval past (r.holding slots) ≠ answer interval past r

/-- A call is the last one that read a window of a kind. -/
def LastRead (interval : Nat) (g : RewardGrid) (past : List RewardCall) (q : RewardCall) : Prop :=
  Latest (fun before q => q.grid = g ∧ Reads interval before q) past q

/-- No window of a kind was seen open since one was last seen closed, or ever. -/
def Unseen (g : RewardGrid) (past : List RewardCall) : Prop :=
  ∀ before q after, past = before ++ q :: after → q.grid = g → q.window.visible = true →
    ∃ q' ∈ after, q'.grid = g ∧ q'.window.visible = false

variable {interval : Nat} {g : RewardGrid} {past : List RewardCall} {r : RewardCall}

theorem after_concat (interval : Nat) (past : List RewardCall) (r : RewardCall) :
    after interval (past ++ [r]) = (after interval past).call r := by
  simp [after]

theorem interval_call (c : RewardCache) (r : RewardCall) : (c.call r).interval = c.interval := by
  unfold call
  split <;> rfl

theorem interval_after (interval : Nat) (past : List RewardCall) :
    (after interval past).interval = interval := by
  induction past using List.reverseRecOn with
  | nil => rfl
  | append_singleton past r ih => rw [after_concat, interval_call, ih]

/-- A call looks at its own kind of window, and leaves the other kind alone. -/
theorem snapshot_call (c : RewardCache) (r : RewardCall) (g : RewardGrid) :
    g.snapshot (c.call r) =
      if r.grid = g then (g.snapshot c).update c.interval g.kind r.window r.now
      else g.snapshot c := by
  obtain ⟨grid, window, now⟩ := r
  cases grid <;> cases g <;> rfl

theorem snapshot_after_concat (interval : Nat) (past : List RewardCall) (r : RewardCall)
    (g : RewardGrid) : g.snapshot (after interval (past ++ [r])) =
      if r.grid = g then (g.snapshot (after interval past)).update interval g.kind r.window r.now
      else g.snapshot (after interval past) := by
  rw [after_concat, snapshot_call, interval_after]

/-- **Kinds are apart**: what is held of a kind of window comes from the calls of that kind. -/
theorem snapshot_after_filter (interval : Nat) (past : List RewardCall) (g : RewardGrid) :
    g.snapshot (after interval (past.filter (·.grid = g))) = g.snapshot (after interval past) := by
  induction past using List.reverseRecOn with
  | nil => rfl
  | append_singleton past r ih =>
      rw [List.filter_append, snapshot_after_concat]
      by_cases hgrid : r.grid = g
      · simp [hgrid, snapshot_after_concat, ih]
      · simp [hgrid, ih]

theorem answer_eq (interval : Nat) (past : List RewardCall) (r : RewardCall) :
    answer interval past r = ((r.grid.snapshot (after interval past)).update interval r.grid.kind
      r.window r.now).items := by
  rw [answer, snapshot_call, if_pos rfl, interval_after]

theorem answer_of_not_visible (interval : Nat) (past : List RewardCall)
    (h : r.window.visible = false) : answer interval past r = [] := by
  rw [answer_eq, RewardSnapshot.update_of_not_visible h]

theorem answer_of_visible (interval : Nat) (past : List RewardCall) (h : r.window.visible = true) :
    answer interval past r =
      if hasPassed interval (r.grid.snapshot (after interval past)).takenAt r.now then
        r.window.listings r.grid.kind
      else (r.grid.snapshot (after interval past)).items := by
  rw [answer_eq, RewardSnapshot.update_of_visible h]
  split <;> rfl

theorem answer_filter (interval : Nat) (past : List RewardCall) (r : RewardCall) :
    answer interval (past.filter (·.grid = r.grid)) r = answer interval past r := by
  rw [answer_eq, answer_eq, snapshot_after_filter]

/-! ## when a call reads -/

theorem reads_iff : Reads interval past r ↔ r.window.visible = true ∧
    hasPassed interval (r.grid.snapshot (after interval past)).takenAt r.now = true := by
  unfold Reads
  cases hopen : r.window.visible with
  | false =>
      refine iff_of_false ?_ (by simp)
      rintro ⟨slots, hne⟩
      have hother : (r.holding slots).window.visible = false := hopen
      rw [answer_of_not_visible interval past hopen, answer_of_not_visible interval past hother] at hne
      exact hne rfl
  | true =>
      have hother (slots : Read (List Slot)) : (r.holding slots).window.visible = true := hopen
      simp only [answer_of_visible interval past hopen, answer_of_visible interval past (hother _)]
      cases hpassed : hasPassed interval (r.grid.snapshot (after interval past)).takenAt r.now with
      | false => simp [RewardCall.holding, hpassed]
      | true => simpa [RewardCall.holding, hpassed] using r.window.exists_listings_ne r.grid.kind

theorem unseen_nil : Unseen g [] :=
  fun before _ _ h => absurd h.symm (List.append_ne_nil_of_right_ne_nil before nofun)

theorem unseen_concat_iff : Unseen g (past ++ [r]) ↔
    if r.grid = g then r.window.visible = false else Unseen g past := by
  split
  · next hgrid =>
      constructor
      · intro h
        refine Bool.eq_false_iff.mpr fun hopen => ?_
        obtain ⟨q, hq, -⟩ := h past r [] rfl hgrid hopen
        exact List.not_mem_nil hq
      · intro hclosed before q after heq _ hopen
        rcases concat_eq_append_cons_iff.mp heq with ⟨-, rfl, -⟩ | ⟨rest, -, rfl⟩
        · rw [hclosed] at hopen
          contradiction
        · exact ⟨r, by simp, hgrid, hclosed⟩
  · next hgrid =>
      constructor
      · intro h before q after heq hq hopen
        have hlonger : past ++ [r] = before ++ q :: (after ++ [r]) :=
          concat_eq_append_cons_iff.mpr (.inr ⟨after, heq, rfl⟩)
        obtain ⟨q', hmem, hsame, hclosed⟩ := h before q (after ++ [r]) hlonger hq hopen
        rcases List.mem_append.mp hmem with hmem | hmem
        · exact ⟨q', hmem, hsame, hclosed⟩
        · rw [List.mem_singleton.mp hmem] at hsame
          exact absurd hsame hgrid
      · intro h before q after heq hq hopen
        rcases concat_eq_append_cons_iff.mp heq with ⟨-, rfl, -⟩ | ⟨rest, hrest, rfl⟩
        · exact absurd hq hgrid
        · obtain ⟨q', hmem, hclosed⟩ := h before q rest hrest hq hopen
          exact ⟨q', List.mem_append_left _ hmem, hclosed⟩

/-- **What the cache holds** of a kind of window is nothing, if no such window was seen open since one was
closed, and else what the last call that read one found. -/
theorem snapshot_after_cases (interval : Nat) (g : RewardGrid) (past : List RewardCall) :
    Unseen g past ∧ g.snapshot (after interval past) = {} ∨
      ¬ Unseen g past ∧ ∃ q, LastRead interval g past q ∧
        g.snapshot (after interval past) = ⟨some q.now, q.window.listings g.kind⟩ := by
  induction past using List.reverseRecOn with
  | nil => exact .inl ⟨unseen_nil, by cases g <;> rfl⟩
  | append_singleton past r ih =>
      simp only [LastRead, latest_concat_iff, unseen_concat_iff, snapshot_after_concat]
      by_cases hgrid : r.grid = g
      · subst hgrid
        cases hopen : r.window.visible with
        | false => simp [RewardSnapshot.update_of_not_visible hopen]
        | true =>
            refine .inr ⟨by simp, ?_⟩
            rw [if_pos rfl, RewardSnapshot.update_of_visible hopen]
            split
            · next hpassed =>
                exact ⟨r, .inl ⟨⟨rfl, reads_iff.mpr ⟨hopen, hpassed⟩⟩, rfl⟩, rfl⟩
            · next hpassed =>
                -- a window that was just opened is read, so what is held was read before
                obtain ⟨-, hnone⟩ | ⟨-, q, hq, heq⟩ := ih
                · rw [hnone] at hpassed
                  exact absurd rfl hpassed
                · exact ⟨q, .inr ⟨fun h => hpassed (reads_iff.mp h.2).2, hq⟩, heq⟩
      · simpa [hgrid, LastRead] using ih

/-- An open window is read when it was just opened or what is held of it is old; otherwise the
answer is what the last call that read one found. -/
theorem answer_cases (interval : Nat) (past : List RewardCall) (hopen : r.window.visible = true) :
    Unseen r.grid past ∧ Reads interval past r ∨
      ¬ Unseen r.grid past ∧ ∃ q, LastRead interval r.grid past q ∧
        (Reads interval past r ↔ interval ≤ r.now - q.now) ∧
        (¬ Reads interval past r → answer interval past r = q.window.listings r.grid.kind) := by
  simp only [reads_iff, hopen, true_and]
  obtain ⟨hunseen, hheld⟩ | ⟨hseen, q, hq, hheld⟩ := snapshot_after_cases interval r.grid past
  · rw [hheld]
    exact .inl ⟨hunseen, rfl⟩
  · refine .inr ⟨hseen, q, hq, ?_, fun hfresh => ?_⟩
    · rw [hheld, hasPassed_some, decide_eq_true_iff]
    · rw [answer_of_visible interval past hopen, if_neg hfresh, hheld]

/-- What is answered is nothing, or was found by a call that read its window. -/
theorem of_mem_answer {l : Listing} (h : l ∈ answer interval past r) :
    l.kind = r.grid.kind ∧ l.tab = 0 ∧ l.item.valid = true ∧ l.item.address ≠ 0 := by
  cases hopen : r.window.visible with
  | false =>
      rw [answer_of_not_visible interval past hopen] at h
      exact absurd h List.not_mem_nil
  | true =>
      by_cases hreads : Reads interval past r
      · rw [answer_of_visible interval past hopen, if_pos (reads_iff.mp hreads).2] at h
        exact RewardWindow.of_mem_listings h
      · obtain ⟨-, hfirst⟩ | ⟨-, q, -, -, hkept⟩ := answer_cases interval past hopen
        · exact absurd hfirst hreads
        · rw [hkept hreads] at h
          exact RewardWindow.of_mem_listings h

/-- **Rewards are answered in time.** A closed window has no rewards. An open window is read when it was
just opened, or the interval is over since the last time; otherwise the answer is what was read then. All
that is answered is of known items of its kind, and no call for the other kind makes a difference. -/
theorem answer_timely (interval : Nat) (past : List RewardCall) (r : RewardCall)
    (htimes : (past ++ [r]).Pairwise (·.now ≤ ·.now)) :
    (r.window.visible = false → answer interval past r = []) ∧
      (r.window.visible = true →
        (Reads interval past r ↔ Unseen r.grid past ∨
          ∃ q, LastRead interval r.grid past q ∧ q.now + interval ≤ r.now) ∧
        (Reads interval past r → answer interval past r = r.window.listings r.grid.kind) ∧
        (¬ Reads interval past r → ∃ q, LastRead interval r.grid past q ∧
          r.now < q.now + interval ∧ answer interval past r = q.window.listings r.grid.kind)) ∧
      (∀ l ∈ answer interval past r,
        l.kind = r.grid.kind ∧ l.tab = 0 ∧ l.item.valid = true ∧ l.item.address ≠ 0) ∧
      answer interval (past.filter (·.grid = r.grid)) r = answer interval past r := by
  have hearlier : ∀ q ∈ past, q.now ≤ r.now := fun q hq =>
    (List.pairwise_append.mp htimes).2.2 q hq r List.mem_cons_self
  refine ⟨answer_of_not_visible interval past, fun hopen => ⟨?_, fun hreads => ?_, fun hfresh => ?_⟩,
    fun _ => of_mem_answer, answer_filter interval past r⟩
  · obtain ⟨hunseen, hreads⟩ | ⟨hseen, q, hq, hreads, -⟩ := answer_cases interval past hopen
    · exact iff_of_true hreads (.inl hunseen)
    · have hle := hearlier q hq.mem
      rw [hreads]
      constructor
      · intro hold
        exact .inr ⟨q, hq, by omega⟩
      · rintro (hunseen | ⟨q', hq', hold⟩)
        · exact absurd hunseen hseen
        · rw [hq.eq hq']
          omega
  · rw [answer_of_visible interval past hopen, if_pos (reads_iff.mp hreads).2]
  · obtain ⟨-, hreads⟩ | ⟨-, q, hq, hreads, hkept⟩ := answer_cases interval past hopen
    · exact absurd hreads hfresh
    · have hle := hearlier q hq.mem
      rw [hreads] at hfresh
      exact ⟨q, hq, by omega, hkept (mt hreads.mp hfresh)⟩

/-- A window with quest rewards that is closed and opened again, and looked at once more just
before a second is over. -/
theorem answer_of_reopened :
    let holds (address : Nat) : RewardWindow := ⟨true, .ok [⟨some (.ring address), .zero, true⟩]⟩
    let first : List RewardCall := [⟨.quest, holds 1, 0⟩, ⟨.ritual, holds 7, 10⟩]
    let past := first ++ [⟨.quest, ⟨false, .ok []⟩, 20⟩]
    let reopened : RewardCall := ⟨.quest, holds 2, 30⟩
    let soon : RewardCall := ⟨.quest, holds 3, 1029⟩
    (past ++ [reopened]).Pairwise (·.now ≤ ·.now) ∧
      (past ++ [reopened] ++ [soon]).Pairwise (·.now ≤ ·.now) ∧
      Reads 1000 past reopened ∧ ¬ Reads 1000 (past ++ [reopened]) soon ∧
      ∃ q, LastRead 1000 .quest (past ++ [reopened]) q ∧ 1029 < q.now + 1000 ∧
        answer 1000 (past ++ [reopened]) soon = q.window.listings .questReward := by
  intro holds first past reopened soon
  have hpast : (past ++ [reopened]).Pairwise (·.now ≤ ·.now) := by decide
  have htimes : (past ++ [reopened] ++ [soon]).Pairwise (·.now ≤ ·.now) := by decide
  have hunseen : Unseen .quest past := by
    rw [unseen_concat_iff]
    rfl
  have hreads := ((answer_timely 1000 past reopened hpast).2.1 rfl).1.mpr (.inl hunseen)
  have hfresh : ¬ Reads 1000 (past ++ [reopened]) soon := by
    rw [reads_iff]
    decide
  have hkept := ((answer_timely 1000 (past ++ [reopened]) soon htimes).2.1 rfl).2.2 hfresh
  exact ⟨hpast, htimes, hreads, hfresh, hkept⟩

end RewardCache

end ShopLens
