import Mathlib.Data.Option.Basic
import ShopLens.Proofs.Session.Switch

/-!
# ShopLens.Proofs.Session.Passes

What a pass holds, for any items that it is taken over. The frames are those of the wanted items, one for
each and in their order (`Session.map_item_pass`), in the color that the next item to buy or the rules
give them, dimmed under the tooltip of another item (`Highlight.Shows`).

The next item to buy is the first of them, but the frames know it by its address only. So frames of the
same item elsewhere are marked with it, and the first frame is the only one marked just when no other
frame is of its item (`Session.pass_marks_first_iff`).
-/

namespace ShopLens

/-- The tooltip of another item lies over the rectangle of an item. -/
def Listing.IsUnder (l : Listing) (hover : Option Hover) : Prop :=
  ∃ h ∈ hover, h.address ≠ l.address ∧ h.tooltip.intersects l.rect = true

theorem isCovered_iff {hover : Option Hover} {l : Listing} :
    isCovered hover l.rect l.address = true ↔ l.IsUnder hover := by
  simp [isCovered, Option.any_eq_true, Hover.covers, Listing.IsUnder]

namespace Session

variable (s : Session)

/-- The items that get a frame: those laid out that a rule matches. -/
def wanted (items : List Listing) : List Listing :=
  items.filter fun l => !l.rect.isDegenerate 1 && s.isMatch l

/-- More may be bought at a place. -/
def MayBuy (key : TabKey) : Prop :=
  s.planner.enabled = true ∧
    (s.planner.limit = 0 ∨ s.planner.purchases key < s.planner.limit)

/-- The color that a frame has unless it is dimmed. -/
def fullColor (h : Highlight) : Color :=
  if h.isNext then s.settings.purchaseColor else s.colorOf h.item

end Session

/-- A frame shows its item: it lies around it, in its color, dimmed just when the tooltip of another item
lies over it. -/
structure Highlight.Shows (h : Highlight) (s : Session) (hover : Option Hover) : Prop where
  rect_eq : h.rect = h.item.rect
  color_of_isUnder : h.item.IsUnder hover → h.color = (s.fullColor h).withAlpha 45
  color_of_not_isUnder : ¬ h.item.IsUnder hover → h.color = s.fullColor h

namespace Session

variable {s : Session} {key : TabKey} {items : List Listing} {hover : Option Hover}

theorem shows_frame (next : Option Nat) (l : Listing) : (s.frame next hover l).Shows s hover where
  rect_eq := rfl
  color_of_isUnder := by
    intro hunder
    have hcovered : isCovered hover l.rect l.address = true := isCovered_iff.mpr hunder
    simp [frame, fullColor, Color.dimIf, hcovered, dimmedAlpha]
  color_of_not_isUnder := by
    intro hunder
    have hcovered : isCovered hover l.rect l.address = false :=
      Bool.eq_false_iff.mpr (mt isCovered_iff.mp hunder)
    simp [frame, fullColor, Color.dimIf, hcovered]

theorem mayBuy_iff : s.MayBuy key ↔ (s.planner.enabled && s.planner.isUnderLimit key) = true := by
  simp [MayBuy, Planner.isUnderLimit]

/-- The address that the marked frames have in common. -/
theorem next?_eq_some_iff {address : Nat} :
    (s.planner.next? key (s.wanted items)).map Listing.address = some address ↔
      s.MayBuy key ∧ ∃ first ∈ (s.wanted items).head?, first.address = address := by
  rw [mayBuy_iff, Planner.next?]
  split
  · next hbuy => simp [hbuy, Option.map_eq_some_iff]
  · next hbuy => simp [hbuy]

/-! ## the frames of a pass -/

theorem highlights_pass :
    (s.pass key items hover).highlights = (s.wanted items).map
      (s.frame ((s.planner.next? key (s.wanted items)).map Listing.address) hover) := rfl

/-- There is one frame for each wanted item, in their order. -/
theorem map_item_pass : (s.pass key items hover).highlights.map Highlight.item = s.wanted items := by
  rw [highlights_pass, List.map_map]
  exact List.map_id _

section Frames

variable {h : Highlight} (hmem : h ∈ (s.pass key items hover).highlights)

include hmem

theorem shows_of_mem_pass : h.Shows s hover := by
  rw [highlights_pass] at hmem
  obtain ⟨l, -, rfl⟩ := List.mem_map.mp hmem
  exact shows_frame _ l

theorem item_mem_of_mem_pass : h.item ∈ items := by
  have hitem : h.item ∈ s.wanted items := map_item_pass ▸ List.mem_map_of_mem hmem
  exact (List.mem_filter.mp hitem).1

/-- The marked frames are those of the item of the first one, if anything may be bought. -/
theorem isNext_iff_of_mem_pass :
    h.isNext = true ↔ s.MayBuy key ∧
      ∃ first ∈ (s.pass key items hover).highlights.head?, first.item.address = h.item.address := by
  have hitems : (s.pass key items hover).highlights.map Highlight.item = s.wanted items := map_item_pass
  have hhead : (s.wanted items).head? = (s.pass key items hover).highlights.head?.map Highlight.item := by
    rw [← hitems, List.head?_map]
  rw [highlights_pass] at hmem
  obtain ⟨l, -, rfl⟩ := List.mem_map.mp hmem
  have hmark : (s.frame ((s.planner.next? key (s.wanted items)).map Listing.address) hover l).isNext =
      true ↔ (s.planner.next? key (s.wanted items)).map Listing.address = some l.address := by
    simp [frame]
  rw [hmark, next?_eq_some_iff, hhead]
  exact and_congr_right fun _ => Option.exists_mem_map

end Frames

/-- **What a pass holds**: the frames of the wanted items, each shown as its item is. The first frame is
marked just when more may be bought, and no frame is marked otherwise. It is the only one that is marked
just when nothing may be bought or no other frame is of its item. -/
theorem pass_marks_first_iff (s : Session) (key : TabKey) (items : List Listing)
    (hover : Option Hover) :
    let highlights := (s.pass key items hover).highlights
    highlights.map Highlight.item =
        items.filter (fun l => !l.rect.isDegenerate 1 && s.rules.isMatch s.limits l) ∧
      (∀ h ∈ highlights, h.Shows s hover) ∧
      ((∃ h ∈ highlights, h.isNext = true) ↔ s.MayBuy key ∧ highlights ≠ []) ∧
      (∀ first ∈ highlights.head?, first.isNext = true ↔ s.MayBuy key) ∧
      ((∀ h ∈ highlights.tail, h.isNext = false) ↔
        (s.MayBuy key → ∀ first ∈ highlights.head?, ∀ h ∈ highlights.tail,
          h.item.address ≠ first.item.address)) := by
  intro highlights
  have hmark (h : Highlight) (hmem : h ∈ highlights) : h.isNext = true ↔ s.MayBuy key ∧
      ∃ first ∈ highlights.head?, first.item.address = h.item.address :=
    isNext_iff_of_mem_pass hmem
  have hfirst (first : Highlight) (h : first ∈ highlights.head?) :
      first.isNext = true ↔ s.MayBuy key := by
    rw [hmark first (List.mem_of_mem_head? h)]
    exact and_iff_left ⟨first, h, rfl⟩
  refine ⟨map_item_pass, fun h => shows_of_mem_pass, ⟨?_, ?_⟩, hfirst, ⟨?_, ?_⟩⟩
  · rintro ⟨h, hmem, hnext⟩
    exact ⟨((hmark h hmem).mp hnext).1, List.ne_nil_of_mem hmem⟩
  · rintro ⟨hbuy, hne⟩
    have hhead := List.head_mem_head? hne
    exact ⟨_, List.head_mem hne, (hfirst _ hhead).mpr hbuy⟩
  · intro hone hbuy first hhead h hmem haddress
    have hnext := (hmark h (List.mem_of_mem_tail hmem)).mpr ⟨hbuy, first, hhead, haddress.symm⟩
    rw [hone h hmem] at hnext
    contradiction
  · intro hother h hmem
    refine Bool.eq_false_iff.mpr fun hnext => ?_
    obtain ⟨hbuy, first, hhead, haddress⟩ := (hmark h (List.mem_of_mem_tail hmem)).mp hnext
    exact hother hbuy first hhead h hmem haddress.symm

/-- A vendor who offers the same ring in two slots. -/
def twinVendor : VendorWindow :=
  { ringVendor with
    offers := .ok [⟨some (.ring 1), shelfItem.rect, true⟩,
      ⟨some (.ring 1), ⟨150, 100, 50, 50⟩, true⟩] }

/-- Both frames are marked then. -/
theorem marks_of_twins :
    let s := (withCompiler Filter.compile eager).run [wantAll]
    let highlights := (s.highlightVendor twinVendor none).highlights
    highlights.map Highlight.rect = [shelfItem.rect, ⟨150, 100, 50, 50⟩] ∧
      highlights.map Highlight.isNext = [true, true] := by
  decide +kernel

end Session

end ShopLens
