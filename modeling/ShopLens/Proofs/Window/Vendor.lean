import Mathlib.Data.List.Basic
import ShopLens.Proofs.Filter.Lexemes
import ShopLens.Proofs.Session.Passes
import ShopLens.Proofs.Window.Placement

/-!
# ShopLens.Proofs.Window.Vendor

The two lists of a vendor. One of them is shown, and all that goes with it is taken from there: the
slots, their bounds, the number of the tab, and the place where purchases are counted
(`VendorWindow.lists_apart`).

The numbers of the lists are negative. So filters see no open affix on an item there
(`AffixLimits.openCount_of_neg`), and a rule that asks for open affixes does not match it
(`Binding.any_thresholds_of_isMatch`).
-/

namespace ShopLens

/-! ## slots on a list -/

/-- A slot is on a list with these bounds: it can be seen, it holds an item that the game knows, and it
lies within the bounds if they have an area. -/
def Slot.IsListed (slot : Slot) (bounds : Option Rect) : Prop :=
  slot.visible = true ∧ (∃ item ∈ slot.item, item.address ≠ 0 ∧ item.valid = true) ∧
    ∀ b ∈ bounds, 0 < b.width → 0 < b.height → b.contains slot.rect = true

namespace Slot

variable {slot : Slot} {bounds : Option Rect}

instance : Decidable (slot.IsListed bounds) :=
  inferInstanceAs (Decidable (_ ∧ _ ∧ ∀ b ∈ bounds, _))

theorem any_isLive_iff :
    slot.item.any Item.isLive = true ↔
      ∃ item ∈ slot.item, item.address ≠ 0 ∧ item.valid = true := by
  simp [Option.any_eq_true, Item.isLive]

theorem isWithin_iff :
    slot.isWithin bounds = true ↔
      ∀ b ∈ bounds, 0 < b.width → 0 < b.height → b.contains slot.rect = true := by
  cases bounds with
  | none => simp [isWithin]
  | some b =>
      simp only [isWithin, Option.mem_some_iff, forall_eq']
      grind

theorem isListed_iff :
    slot.IsListed bounds ↔
      ((slot.visible && slot.isWithin bounds) && slot.item.any Item.isLive) = true := by
  rw [Bool.and_eq_true, Bool.and_eq_true, isWithin_iff, any_isLive_iff, and_assoc]
  exact and_congr_right fun _ => and_comm

end Slot

/-- A list holds, in their order, the items in the slots of one grid that are on it, under a number. -/
structure VendorList.Holds (list : VendorList) (slots : Read (List Slot)) (bounds : Option Rect)
    (tab : Int) (frame : Nat) : Prop where
  tab_eq : list.tab = tab
  placements : list.items.map Listing.placement =
    (slots.orEmpty.filter fun slot => slot.IsListed bounds).map Slot.placement
  of_mem : ∀ l ∈ list.items,
    l.kind = .shopItem ∧ l.tab = tab ∧ l.displayed = true ∧ l.stamp = ⟨frame, none⟩

theorem holds_vendorListings (isBuyback : Bool) (slots : Read (List Slot)) (bounds : Option Rect)
    (tab : Int) (frame : Nat) :
    VendorList.Holds ⟨isBuyback, tab, vendorListings slots bounds tab frame⟩ slots bounds tab
      frame where
  tab_eq := rfl
  placements := by
    rw [map_placement_vendorListings, List.filter_filter]
    refine congrArg _ (List.filter_congr fun slot _ => ?_)
    rw [Bool.and_comm, Bool.eq_iff_iff, decide_eq_true_iff, Slot.isListed_iff]
  of_mem := by
    intro l hl
    obtain ⟨slot, -, hl⟩ := List.mem_filterMap.mp hl
    obtain ⟨item, -, rfl⟩ := Option.map_eq_some_iff.mp hl
    exact ⟨rfl, rfl, rfl, rfl⟩

/-- What a list holds is in slots that can be seen. -/
theorem VendorList.Holds.sublist {list : VendorList} {slots : Read (List Slot)} {bounds : Option Rect}
    {tab : Int} {frame : Nat} (h : list.Holds slots bounds tab frame) :
    (list.items.map Listing.placement).Sublist
      ((slots.orEmpty.filter Slot.visible).map Slot.placement) := by
  rw [h.placements]
  refine (List.monotone_filter_right _ fun slot hlisted => ?_).map _
  exact (of_decide_eq_true hlisted).1

/-! ## negative numbers -/

/-- An item under a negative number has no open affixes. -/
theorem AffixLimits.openCount_of_neg {limits : AffixLimits} {l : Listing} (h : l.tab < 0)
    (k : AffixKind) : limits.openCount l k = 0 := by
  simp [openCount, h]

namespace Filter

/-- A text that calls a function and does nothing else. -/
theorem parse_call {text name : String} {k : AffixKind}
    (hlexes : Lexes text.toList [.ident name, .sym .lparen, .sym .rparen])
    (h : function? name = some k) : parse text = .ok (.openCount k) := by
  obtain ⟨ps, hps, hbare⟩ := hlexes
  have hcomparison : Derives .comparison 0 0 (bare ps) (.openCount k) := by
    rw [hbare]
    exact .ofOperand (.ofAtom (.function h))
  have hder := hcomparison.ofComparison.conjunction.disjunction
  rw [parse, hps]
  exact parseTokens_of_derives hder (Nat.zero_le _)

theorem parse_openPrefixCount : parse "OpenPrefixCount()" = .ok (.openCount .prefixMod) := by
  have htokens : tokens "OpenPrefixCount()".toList =
      .ok [⟨.ident "OpenPrefixCount", 0⟩, ⟨.sym .lparen, 15⟩, ⟨.sym .rparen, 16⟩] := by
    decide +kernel
  exact parse_call ⟨_, htokens, rfl⟩ rfl

theorem parse_openSuffixCount : parse "OpenSuffixCount()" = .ok (.openCount .suffixMod) := by
  have htokens : tokens "OpenSuffixCount()".toList =
      .ok [⟨.ident "OpenSuffixCount", 0⟩, ⟨.sym .lparen, 15⟩, ⟨.sym .rparen, 16⟩] := by
    decide +kernel
  exact parse_call ⟨_, htokens, rfl⟩ rfl

end Filter

namespace VendorList.Holds

variable {list : VendorList} {slots : Read (List Slot)} {bounds : Option Rect} {tab : Int}
  {frame : Nat} (h : list.Holds slots bounds tab frame) (htab : tab < 0)
  {l : Listing} (hl : l ∈ list.items)

include h htab hl

theorem tab_neg : l.tab < 0 := (h.of_mem l hl).2.1 ▸ htab

/-- The first rule that matches an item on a list asks for no open affixes. -/
theorem any_thresholds {rules : RuleSet} {limits : AffixLimits} {b : Binding}
    (hb : rules.firstMatch? limits l = some b) : b.thresholds.any = false := by
  have hmatch : b.isMatch limits l = true := by simpa using List.find?_some hb
  exact Binding.any_thresholds_of_isMatch hmatch (.inl (h.tab_neg htab hl))

theorem eval_openCount (limits : AffixLimits) (k : AffixKind) :
    (Filter.Expr.openCount k).eval limits l = .ok (.int 0) := by
  rw [Filter.Expr.eval, AffixLimits.openCount_of_neg (h.tab_neg htab hl)]
  rfl

end VendorList.Holds

/-! ## the list that is shown -/

namespace VendorWindow

variable {w : VendorWindow}

theorem list?_of_not_visible (h : w.visible = false) (frame : Nat) : w.list? frame = none := by
  simp [list?, h]

/-- An open window shows what can be bought back if that panel can be seen, else what is offered. -/
theorem exists_list?_of_visible (h : w.visible = true) (frame : Nat) :
    ∃ list, w.list? frame = some list ∧
      (list.isBuyback = true ↔ w.buybackVisible = some true) ∧
      if w.buybackVisible = some true then list.Holds w.buyback w.buybackBounds (-2) frame
      else list.Holds w.offers w.offersBounds (-1) frame := by
  by_cases hb : w.buybackVisible = some true
  · have hlist : w.list? frame =
        some ⟨true, -2, vendorListings w.buyback w.buybackBounds (-2) frame⟩ := by
      simp [list?, h, hb, Listing.buybackTab]
    refine ⟨_, hlist, iff_of_true rfl hb, ?_⟩
    rw [if_pos hb]
    exact holds_vendorListings ..
  · have hlist : w.list? frame =
        some ⟨false, -1, vendorListings w.offers w.offersBounds (-1) frame⟩ := by
      simp [list?, h, hb, Listing.offersTab]
    refine ⟨_, hlist, iff_of_false Bool.false_ne_true hb, ?_⟩
    rw [if_neg hb]
    exact holds_vendorListings ..

/-- **The lists of a vendor are kept apart.** A closed window shows none. An open one shows one list, and
the slots, the bounds and the number of the tab are those of this list; so is the place where what is
bought from a pass is counted. No item on it is taken by a rule that asks for open affixes, and filters
find none on it. -/
theorem lists_apart (w : VendorWindow) (frame : Nat) (rules : RuleSet) (limits : AffixLimits) :
    (w.visible = false → w.list? frame = none) ∧
      (w.visible = true → ∃ list, w.list? frame = some list ∧
        (list.isBuyback = true ↔ w.buybackVisible = some true) ∧
        (if w.buybackVisible = some true then list.Holds w.buyback w.buybackBounds (-2) frame
          else list.Holds w.offers w.offersBounds (-1) frame) ∧
        (∀ l ∈ list.items, ∀ b, rules.firstMatch? limits l = some b → b.thresholds.any = false) ∧
        (∀ text ∈ ["OpenPrefixCount()", "OpenSuffixCount()"], ∃ e, Filter.parse text = .ok e ∧
          ∀ l ∈ list.items, e.eval limits l = .ok (.int 0)) ∧
        ∀ (s : Session) (hover : Option Hover), s.settings.enable = true → s.tabs.frame = frame →
          let pass := s.highlightVendor w hover
          pass.key = some (if w.buybackVisible = some true then .buyback else .offers) ∧
            ∀ h ∈ pass.highlights, h.item ∈ list.items) := by
  refine ⟨fun h => list?_of_not_visible h frame, fun h => ?_⟩
  obtain ⟨list, hlist, hbuyback, hshown⟩ := exists_list?_of_visible h frame
  have hneg : ∃ slots bounds tab, tab < 0 ∧ list.Holds slots bounds tab frame := by
    split at hshown
    · exact ⟨_, _, -2, by decide, hshown⟩
    · exact ⟨_, _, -1, by decide, hshown⟩
  obtain ⟨slots, bounds, tab, htab, hholds⟩ := hneg
  refine ⟨list, hlist, hbuyback, hshown, ?_, ?_, ?_⟩
  · exact fun l hl b hb => hholds.any_thresholds htab hl hb
  · simp only [List.forall_mem_cons, List.not_mem_nil, false_imp_iff, implies_true, and_true]
    exact ⟨⟨_, Filter.parse_openPrefixCount, fun l hl => hholds.eval_openCount htab hl limits _⟩,
      ⟨_, Filter.parse_openSuffixCount, fun l hl => hholds.eval_openCount htab hl limits _⟩⟩
  · intro s hover henable hframe pass
    have hpass : pass = s.pass (if w.buybackVisible = some true then .buyback else .offers)
        list.items hover := by
      simp [pass, Session.highlightVendor, henable, hframe, hlist, hbuyback]
    exact ⟨congrArg HighlightPass.key hpass, fun h hmem =>
      Session.item_mem_of_mem_pass (hpass ▸ hmem)⟩

/-- A vendor who offers one ring and shows three that can be bought back: one that can be seen, one that
cannot, and one beyond the bounds. -/
def soldRings : VendorWindow where
  visible := true
  buybackVisible := some true
  offers := .ok [⟨some (.ring 1), shelfItem.rect, true⟩]
  buyback := .ok [⟨some (.ring 2), shelfItem.rect, true⟩, ⟨some (.ring 3), shelfItem.rect, false⟩,
    ⟨some (.ring 4), ⟨900, 100, 50, 50⟩, true⟩]
  offersBounds := none
  buybackBounds := some gameWindow

theorem lists_of_soldRings :
    ∃ list, soldRings.list? 3 = some list ∧ list.Holds soldRings.buyback (some gameWindow) (-2) 3 ∧
      list.items.map Listing.address = [2] := by
  obtain ⟨list, hlist, -, hshown, -⟩ := (lists_apart soldRings 3 .empty {}).2 rfl
  have hitems : (soldRings.list? 3).map (·.items.map Listing.address) = some [2] := by
    decide +kernel
  rw [hlist] at hitems
  exact ⟨list, hlist, hshown, Option.some.inj hitems⟩

end VendorWindow

end ShopLens
