import ShopLens.Proofs.Session.Passes
import ShopLens.Proofs.Session.Records
import ShopLens.Proofs.Session.Rewards
import ShopLens.Proofs.Tabs.Currency
import ShopLens.Proofs.Window.Vendor

/-!
# ShopLens.Proofs.Session.Places

Which slots are framed. A frame keeps the item and the rectangle of its slot, as a listing does, so frames
lie on slots when their placements are among those of the slots, in the same order (`LieOn`).

On the selected tab and on the list of a vendor the slots that cannot be seen are left out when the
listings are made, and those that are not laid out when a pass is taken (`Session.lieOn_pass`). In reward
windows neither is done: there the frames are those of all slots with a wanted item, and they lie on
slots that are shown just when these slots are (`sublist_map_filter_iff`).
-/

namespace ShopLens

/-- A slot is shown: it can be seen, and it is laid out. -/
def Slot.isShown (slot : Slot) : Bool := slot.visible && !slot.rect.isInvisible

/-- The slots of the list that a vendor shows. -/
def VendorWindow.shownSlots (w : VendorWindow) : List Slot :=
  (if w.buybackVisible = some true then w.buyback else w.offers).orEmpty

/-- The item of a frame, and where it lies. -/
def Highlight.placement (h : Highlight) : Option Item × Rect := (some h.item.item, h.rect)

/-- Each of these frames lies around the item in a slot of its own, and they are in the order of the
slots. -/
def LieOn (highlights : List Highlight) (slots : List Slot) : Prop :=
  (highlights.map Highlight.placement).Sublist (slots.map Slot.placement)

theorem LieOn.nil (slots : List Slot) : LieOn [] slots := List.nil_sublist _

theorem filter_isShown (slots : List Slot) :
    (slots.filter Slot.visible).filter (!·.rect.isInvisible) = slots.filter Slot.isShown := by
  rw [List.filter_filter]
  exact List.filter_congr fun slot _ => Bool.and_comm _ _

/-- Elements picked by what `f` tells of them are, as `f` tells them, among those picked by `q` just when
`q` picks all of them too. -/
theorem sublist_map_filter_iff {α β : Type} {f : α → β} {p : β → Bool} {q : α → Bool} {l : List α} :
    ((l.filter (p ∘ f)).map f).Sublist ((l.filter q).map f) ↔ ∀ a ∈ l, p (f a) = true → q a = true := by
  have hcomm : (l.filter q).filter (p ∘ f) = (l.filter (p ∘ f)).filter q := by
    rw [List.filter_filter, List.filter_filter]
    exact List.filter_congr fun a _ => Bool.and_comm _ _
  constructor
  · intro hsub
    -- none is lost on the left, so by their number none that `q` does not pick is there
    have hlength := (hsub.filter p).length_le
    rw [List.filter_map, List.filter_map, List.length_map, List.length_map, hcomm,
      List.filter_filter] at hlength
    simp only [Bool.and_self] at hlength
    have hall := List.length_filter_eq_length_iff.mp
      (Nat.le_antisymm (List.length_filter_le q _) hlength)
    exact fun a ha hp => hall a (List.mem_filter.mpr ⟨ha, hp⟩)
  · intro h
    have hall : (l.filter (p ∘ f)).filter q = l.filter (p ∘ f) :=
      List.filter_eq_self.mpr fun a ha => h a (List.mem_filter.mp ha).1 (List.mem_filter.mp ha).2
    rw [← hall, ← hcomm]
    exact List.filter_sublist.map f

namespace Session

variable {s : Session} {hover : Option Hover}

/-! ## passes -/

theorem map_placement_pass {key : TabKey} {items : List Listing} :
    (s.pass key items hover).highlights.map Highlight.placement =
      (s.wanted items).map Listing.placement := by
  rw [highlights_pass, List.map_map]
  rfl

/-- The frames of a pass over listings that are made of some slots lie on those that are laid out. -/
theorem lieOn_pass {key : TabKey} {items : List Listing} {slots : List Slot}
    (h : (items.map Listing.placement).Sublist (slots.map Slot.placement)) :
    LieOn (s.pass key items hover).highlights (slots.filter (!·.rect.isInvisible)) := by
  have hwanted : (s.wanted items).Sublist (items.filter (!·.rect.isInvisible)) := by
    rw [wanted, ← List.filter_filter]
    exact List.filter_sublist.filter _
  have hlaid := h.filter fun place => !place.2.isInvisible
  rw [List.filter_map, List.filter_map] at hlaid
  rw [LieOn, map_placement_pass]
  exact (hwanted.map Listing.placement).trans hlaid

/-- The frames on the selected tab are those of a pass over what is current there. -/
theorem exists_pass_highlightSelected {tab : TabRecord} (henable : s.settings.enable = true)
    (h : s.tabs.selected? = some tab) (hover : Option Hover) :
    ∃ (t : Session) (key : TabKey), (s.highlightSelected hover).1 =
      t.pass key (tab.displayedItems.filter s.tabs.isCurrent) hover :=
  ⟨{ s with planner := s.planner.noteTab tab.title }, .tab tab.title,
    by simp [highlightSelected, henable, h]⟩

/-- The frames on the selected tab lie on slots that are shown of the tab at its index. -/
theorem lieOn_highlightSelected {s₀ : Session} {actions before after : List Action}
    {window : Container} {now : Nat} (h : s₀.LastBuild actions before window now after)
    (hover : Option Hover) :
    let highlights := ((s₀.run actions).highlightSelected hover).1.highlights
    highlights = [] ∨ ∃ index tab, (s₀.run actions).tabs.selection.index = some index ∧
      window.tabs[index]? = some (some tab) ∧
      LieOn highlights (tab.displayed.orEmpty.filter Slot.isShown) := by
  intro highlights
  cases henable : (s₀.run actions).settings.enable with
  | false => exact .inl (by simp [highlights, highlightSelected_of_switchedOff henable])
  | true =>
      cases hselected : (s₀.run actions).tabs.selected? with
      | none => exact .inl (by simp [highlights, highlightSelected, henable, hselected])
      | some r =>
          obtain ⟨hr, hindex⟩ := TabCache.mem_of_selected? hselected
          obtain ⟨tab, id, identity, stamp, settled, htab, rfl⟩ := h.exists_tab hr
          obtain ⟨t, key, hpass⟩ := exists_pass_highlightSelected henable hselected hover
          refine .inr ⟨_, tab, hindex, htab, ?_⟩
          rw [← filter_isShown]
          simp only [highlights, hpass]
          exact lieOn_pass ((List.filter_sublist.map _).trans (tab.sublist_displayedItems ..))

/-- The frames on the list of a vendor lie on slots that are shown of the list. -/
theorem lieOn_highlightVendor (s : Session) (window : VendorWindow) (hover : Option Hover) :
    LieOn (s.highlightVendor window hover).highlights
      (window.shownSlots.filter Slot.isShown) := by
  cases henable : s.settings.enable with
  | false =>
      rw [highlightVendor_of_switchedOff henable]
      exact .nil _
  | true =>
      cases hopen : window.visible with
      | false =>
          simp only [highlightVendor, henable, VendorWindow.list?_of_not_visible hopen]
          exact .nil _
      | true =>
          obtain ⟨list, hlist, -, hholds⟩ :=
            VendorWindow.exists_list?_of_visible hopen s.tabs.frame
          have hsub : (list.items.map Listing.placement).Sublist
              ((window.shownSlots.filter Slot.visible).map Slot.placement) := by
            rw [VendorWindow.shownSlots]
            split at hholds
            · next hbuyback =>
                rw [if_pos hbuyback]
                exact hholds.sublist
            · next hbuyback =>
                rw [if_neg hbuyback]
                exact hholds.sublist
          simp only [highlightVendor, henable, hlist]
          rw [← filter_isShown]
          exact lieOn_pass hsub

/-! ## rewards -/

/-- A rule matches the item at a place in a reward window, and the game knows the item. -/
def wantsReward (s : Session) (g : RewardGrid) (place : Option Item × Rect) : Bool :=
  place.1.any fun item => item.isLive &&
    s.isMatch (.shown item g.kind place.2 Listing.rewardTab .zero)

theorem map_placement_frameRewards (items : List Listing) :
    (s.frameRewards items hover).map Highlight.placement =
      (items.filter s.isMatch).map Listing.placement := by
  induction items with
  | nil => rfl
  | cons l items ih =>
      have hl : s.isMatch l = (s.rules.firstMatch? s.limits l).isSome := rfl
      rw [frameRewards] at ih ⊢
      cases hfirst : s.rules.firstMatch? s.limits l with
      | none => simpa [hl, hfirst] using ih
      | some b => simpa [hl, hfirst, Highlight.placement, Listing.placement] using ih

/-- The frames of rewards are those of the slots with a wanted item. -/
theorem map_placement_frameRewards_listings (g : RewardGrid) (window : RewardWindow) :
    (s.frameRewards (window.listings g.kind) hover).map Highlight.placement =
      (window.slots.orEmpty.filter (s.wantsReward g ∘ Slot.placement)).map Slot.placement := by
  have hwanted : (window.listings g.kind).filter s.isMatch =
      (window.listings g.kind).filter (s.wantsReward g ∘ Listing.placement) := by
    refine List.filter_congr fun l hl => ?_
    obtain ⟨slot, -, hslot⟩ := List.mem_filterMap.mp hl
    obtain ⟨item, hitem, rfl⟩ := Option.map_eq_some_iff.mp hslot
    have hlive : item.isLive = true := (Option.filter_eq_some_iff.mp hitem).2
    simp [wantsReward, hlive]
  have hlive : (window.slots.orEmpty.filter fun slot => slot.item.any Item.isLive).filter
      (s.wantsReward g ∘ Slot.placement) =
        window.slots.orEmpty.filter (s.wantsReward g ∘ Slot.placement) := by
    rw [List.filter_filter]
    refine List.filter_congr fun slot _ => ?_
    cases hitem : slot.item with
    | none => simp [wantsReward, Slot.placement, hitem]
    | some item => cases hl : item.isLive <;> simp [wantsReward, Slot.placement, hitem, hl]
  rw [map_placement_frameRewards, hwanted, ← List.filter_map, RewardWindow.map_placement_listings,
    List.filter_map, hlive]

/-- The frames in a reward window are those of the slots with a wanted item, as they were read from an open
window in this pass or an earlier one. -/
theorem exists_read_of_frames (g : RewardGrid) (compiler : Filter.Compiler) (settings : Settings)
    (actions : List Action) (window : RewardWindow) (now : Nat) (hover : Option Hover) :
    let s := (withCompiler compiler settings).run actions
    g.frames s window now hover = [] ∨ ∃ read : RewardWindow,
      (∃ t h, g.look read t h ∈ actions ++ [g.look window now hover]) ∧ read.visible = true ∧
        (g.frames s window now hover).map Highlight.placement =
          (read.slots.orEmpty.filter (s.wantsReward g ∘ Slot.placement)).map Slot.placement := by
  intro s
  cases henable : s.settings.enable with
  | false => exact .inl (g.frames_of_not_enable henable)
  | true =>
      rw [g.frames_of_enable henable]
      rcases RewardGrid.isReadIn_update (g.isReadIn_run compiler settings actions) with
        hnil | ⟨read, hread, hopen, hitems⟩
      · rw [hnil]
        exact .inl rfl
      · rw [hitems]
        exact .inr ⟨read, hread, hopen, map_placement_frameRewards_listings g read⟩

/-- **Where frames lie**, at any moment of a session. On the selected tab they lie on slots that are shown,
of the tab at its index in the window that the records were built from; on the list of a vendor, on slots
that are shown of the list. In a reward window they are around the wanted items in all its slots as they
were last read, so they lie on slots that are shown just when all slots with a wanted item are. -/
theorem frames_lieOn (compiler : Filter.Compiler) (settings : Settings) (actions : List Action) :
    let s₀ := withCompiler compiler settings
    let s := s₀.run actions
    (∀ hover, (s.highlightSelected hover).1.highlights = [] ∨
        ∃ before window now after index tab, s₀.LastBuild actions before window now after ∧
          s.tabs.selection.index = some index ∧ window.tabs[index]? = some (some tab) ∧
          LieOn (s.highlightSelected hover).1.highlights
            (tab.displayed.orEmpty.filter Slot.isShown)) ∧
      (∀ window hover, LieOn (s.highlightVendor window hover).highlights
        (window.shownSlots.filter Slot.isShown)) ∧
      ∀ (g : RewardGrid) window now hover, g.frames s window now hover = [] ∨
        ∃ read : RewardWindow,
          (∃ t h, g.look read t h ∈ actions ++ [g.look window now hover]) ∧ read.visible = true ∧
            (g.frames s window now hover).map Highlight.placement =
              (read.slots.orEmpty.filter (s.wantsReward g ∘ Slot.placement)).map Slot.placement ∧
            (LieOn (g.frames s window now hover) (read.slots.orEmpty.filter Slot.isShown) ↔
              ∀ slot ∈ read.slots.orEmpty, s.wantsReward g slot.placement = true →
                slot.isShown = true) := by
  intro s₀ s
  refine ⟨fun hover => ?_, s.lieOn_highlightVendor, fun g window now hover => ?_⟩
  · rcases records_eq_nil_or_lastBuild compiler settings actions with
      hnil | ⟨before, window, now, after, hlast⟩
    · have hselected : s.tabs.selected? = none := by
        cases hr : s.tabs.selected? with
        | none => rfl
        | some r => simpa [s, s₀, hnil] using (TabCache.mem_of_selected? hr).1
      left
      cases henable : s.settings.enable <;> simp [highlightSelected, henable, hselected]
    · refine (lieOn_highlightSelected hlast hover).imp_right ?_
      rintro ⟨index, tab, hlies⟩
      exact ⟨before, window, now, after, index, tab, hlast, hlies⟩
  · refine (exists_read_of_frames g compiler settings actions window now hover).imp_right ?_
    rintro ⟨read, hread, hopen, hplacements⟩
    refine ⟨read, hread, hopen, hplacements, ?_⟩
    rw [LieOn, hplacements]
    exact sublist_map_filter_iff

/-- An open window with two rewards: one in a slot that cannot be seen, one in a slot without height. -/
def unseenRewards : RewardWindow where
  visible := true
  slots := .ok [⟨some (.ring 1), shelfItem.rect, false⟩,
    ⟨some (.ring 2), ⟨150, 100, 50, 0⟩, true⟩]

/-- Both are framed, although no slot is shown. -/
theorem frames_of_unseenRewards :
    let s := (withCompiler Filter.compile eager).run [wantAll]
    (RewardGrid.quest.frames s unseenRewards 0 none).map Highlight.rect =
        [shelfItem.rect, ⟨150, 100, 50, 0⟩] ∧
      ∀ slot ∈ unseenRewards.slots.orEmpty, slot.isShown = false := by
  decide +kernel

end Session

end ShopLens
