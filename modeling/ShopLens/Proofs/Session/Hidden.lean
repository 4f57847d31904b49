import Mathlib.Data.List.Forall2
import ShopLens.Proofs.Session.Records
import ShopLens.Proofs.Session.Switch
import ShopLens.Session.Hidden

/-!
# ShopLens.Proofs.Session.Hidden

What is shown of the tabs that are not selected. There is one entry for each record of such a tab on
which the server reports a wanted item, in the order of the records (`Session.hiddenTabs_eq_map`).

The names in an entry are those of the wanted items. The color of the header is found in another way, by
a search through the rules for one that matches any item of the tab. The server reports no item that is
laid out, so a rule that is found asks for no open affixes, and the item that it matches is one of those
that are named (`RuleSet.exists_leads`). What the records of a session are like is taken from
`ShopLens.Proofs.Session.Records` (`Session.hiddenTabs_described`).
-/

namespace ShopLens

/-! ## the color of a header -/

/-- A rule asks for no open affixes, matches one of the items that are wanted among some, and no rule
before it matches any of them. -/
structure RuleSet.Leads (rules : RuleSet) (limits : AffixLimits) (ls : List Listing) (b : Binding) :
    Prop where
  any_thresholds : b.thresholds.any = false
  exists_item : ∃ l ∈ ls, rules.isMatch limits l = true ∧ b.isMatch limits l = true
  exists_before : ∃ before after, rules.bindings = before ++ b :: after ∧
    ∀ b' ∈ before, ∀ l ∈ ls, b'.isMatch limits l = false

/-- Where one of some items is wanted and none is laid out, a rule like this gives them their color. -/
theorem RuleSet.exists_leads {rules : RuleSet} {limits : AffixLimits} {ls : List Listing}
    (default : Color) (hwanted : ∃ l ∈ ls, rules.isMatch limits l = true)
    (hhidden : ∀ l ∈ ls, l.displayed = false) :
    ∃ b, rules.Leads limits ls b ∧ rules.colorOfAny limits default ls = b.color := by
  have hmatch {b : Binding} {l : Listing} (hb : b ∈ rules.bindings)
      (h : b.isMatch limits l = true) : rules.isMatch limits l = true :=
    List.find?_isSome.mpr ⟨b, hb, h⟩
  obtain ⟨l, hl, hwanted⟩ := hwanted
  obtain ⟨b₀, hb₀, hb₀l⟩ := List.find?_isSome.mp hwanted
  have hfound : (rules.bindings.find? fun b => ls.any (b.isMatch limits ·)).isSome = true :=
    List.find?_isSome.mpr ⟨b₀, hb₀, List.any_eq_true.mpr ⟨l, hl, hb₀l⟩⟩
  obtain ⟨b, hfind⟩ := Option.isSome_iff_exists.mp hfound
  obtain ⟨hany, before, after, hbindings, hbefore⟩ := List.find?_eq_some_iff_append.mp hfind
  obtain ⟨l', hl', hbl'⟩ := List.any_eq_true.mp hany
  have hleads : rules.Leads limits ls b := {
    any_thresholds := Binding.any_thresholds_of_isMatch hbl' (.inr (hhidden l' hl'))
    exists_item := ⟨l', hl', hmatch (List.mem_of_find?_eq_some hfind) hbl', hbl'⟩
    exists_before := ⟨before, after, hbindings, fun b' hb' => by simpa using hbefore b' hb'⟩ }
  refine ⟨b, hleads, ?_⟩
  rw [colorOfAny, hfind]
  rfl

/-- The tooltip of an item lies over the header of a tab. -/
def TabRecord.IsUnder (tab : TabRecord) (hover : Option Hover) : Prop :=
  ∃ h ∈ hover, ∃ header ∈ tab.header, h.tooltip.intersects header.rect = true

namespace Session

variable {s : Session} {hover : Option Hover} {tab : TabRecord}

theorem headerColor_of_isUnder (h : tab.IsUnder hover) :
    s.headerColor tab hover = (s.colorOfTab tab.serverItems).withAlpha 45 := by
  obtain ⟨hover, rfl, header, hheader, hmeets⟩ := h
  rw [Option.mem_def] at hheader
  unfold headerColor
  simp only [hheader, hmeets]
  rfl

theorem headerColor_of_not_isUnder (h : ¬ tab.IsUnder hover) :
    s.headerColor tab hover = s.colorOfTab tab.serverItems := by
  unfold headerColor
  cases hover with
  | none => rfl
  | some hover =>
      cases hheader : tab.header with
      | none => rfl
      | some header =>
          have hmeets : ¬ hover.tooltip.intersects header.rect = true := fun hmeets =>
            h ⟨hover, rfl, header, hheader, hmeets⟩
          simp only [Bool.eq_false_iff.mpr hmeets]
          rfl

end Session

/-! ## entries -/

/-- An entry describes the record of a tab. -/
structure HiddenTab.Describes (entry : HiddenTab) (s : Session) (hover : Option Hover)
    (tab : TabRecord) : Prop where
  index_eq : entry.index = tab.index
  title_eq : entry.title = tab.title
  header_eq : entry.header = tab.header.filter fun header => !header.rect.isDegenerate 1
  itemNames_eq : entry.itemNames = (tab.serverItems.filter s.isMatch).map Listing.name
  headerColor_eq_none : s.settings.outlineHeaders = false → entry.headerColor = none
  exists_headerColor : s.settings.outlineHeaders = true →
    ∃ b color, s.rules.Leads s.limits tab.serverItems b ∧ entry.headerColor = some color ∧
      (tab.IsUnder hover → color = b.color.withAlpha 45) ∧ (¬ tab.IsUnder hover → color = b.color)

namespace Session

/-- The tabs with an entry: those that are not selected and of which the server reports a wanted item. -/
def listed (s : Session) : List TabRecord :=
  s.tabs.records.filter fun tab =>
    some tab.index ≠ s.tabs.selection.index ∧ ∃ l ∈ tab.serverItems, s.isMatch l = true

variable (s : Session) (hover : Option Hover)

/-- The entry of a tab. -/
def entry (tab : TabRecord) : HiddenTab where
  index := tab.index
  title := tab.title
  header := tab.header.filter (!·.rect.isInvisible)
  headerColor := if s.settings.outlineHeaders then some (s.headerColor tab hover) else none
  itemNames := (tab.serverItems.filter s.isMatch).map Listing.name

theorem hiddenTab?_eq (tab : TabRecord) :
    s.hiddenTab? hover tab =
      (Option.guard (fun tab => tab.serverItems.any s.isMatch) tab).map (s.entry hover) := by
  have hempty : ((tab.serverItems.filter s.isMatch).map Listing.name).isEmpty =
      !tab.serverItems.any s.isMatch := by
    rw [Bool.eq_iff_iff]
    simp
  rw [Option.map_guard, hiddenTab?, hempty]
  cases tab.serverItems.any s.isMatch <;> rfl

/-- There is one entry for each of these tabs, in their order. -/
theorem hiddenTabs_eq_map {s : Session} (henable : s.settings.enable = true) :
    s.hiddenTabs hover = s.listed.map (s.entry hover) := by
  have hentries : s.hiddenTab? hover = fun tab =>
      (Option.guard (fun tab => tab.serverItems.any s.isMatch) tab).map (s.entry hover) :=
    funext (s.hiddenTab?_eq hover)
  simp only [hiddenTabs, henable, Bool.not_true, Bool.false_eq_true, if_false]
  rw [hentries, ← List.map_filterMap, List.filterMap_eq_filter, List.filter_filter, listed]
  refine congrArg _ (List.filter_congr fun tab _ => ?_)
  rw [Bool.eq_iff_iff, Bool.and_eq_true, List.any_eq_true, decide_eq_true_iff, decide_eq_true_iff]
  exact and_comm

variable {s hover} {tab : TabRecord}

theorem describes_entry (hwanted : ∃ l ∈ tab.serverItems, s.isMatch l = true)
    (hhidden : ∀ l ∈ tab.serverItems, l.displayed = false) :
    (s.entry hover tab).Describes s hover tab where
  index_eq := rfl
  title_eq := rfl
  header_eq := rfl
  itemNames_eq := rfl
  headerColor_eq_none := by
    intro houtline
    simp [entry, houtline]
  exists_headerColor := by
    intro houtline
    obtain ⟨b, hleads, hcolor⟩ := RuleSet.exists_leads s.settings.frameColor hwanted hhidden
    refine ⟨b, s.headerColor tab hover, hleads, by simp [entry, houtline], ?_, ?_⟩
    · intro hunder
      rw [headerColor_of_isUnder hunder, colorOfTab, hcolor]
    · intro hunder
      rw [headerColor_of_not_isUnder hunder, colorOfTab, hcolor]

/-- **The hidden tabs.** At any moment of a session that is switched on there is one entry for each record
of a tab that is not selected and of which the server reports a wanted item, and it describes this
record. The entries are in the order of the tabs. -/
theorem hiddenTabs_described {compiler : Filter.Compiler} {settings : Settings}
    {actions : List Action}
    (henable : ((withCompiler compiler settings).run actions).settings.enable = true)
    (hover : Option Hover) :
    let s := (withCompiler compiler settings).run actions
    List.Forall₂ (fun entry tab => entry.Describes s hover tab) (s.hiddenTabs hover)
        (s.tabs.records.filter fun tab =>
          some tab.index ≠ s.tabs.selection.index ∧ ∃ l ∈ tab.serverItems, s.isMatch l = true) ∧
      (s.hiddenTabs hover).Pairwise (·.index < ·.index) := by
  intro s
  rw [hiddenTabs_eq_map hover henable]
  constructor
  · refine List.forall₂_map_left_iff.mpr (List.forall₂_same.mpr fun tab htab => ?_)
    obtain ⟨hrecord, hlisted⟩ := List.mem_filter.mp htab
    exact describes_entry (of_decide_eq_true hlisted).2 fun l hl =>
      displayed_of_mem_serverItems hrecord hl
  · have hrecords := pairwise_index_records compiler settings actions
    exact List.pairwise_map.mpr (hrecords.filter _)

/-- The header of a second tab. -/
def tabHeader : Element := ⟨600, ⟨100, 0, 50, 20⟩⟩

/-- A shop window with the first tab selected and a ring on the second one. -/
def stockWindow : Container :=
  { shopWindow 1 0 with
    tabs :=
      [some ⟨.ok ⟨256, 1⟩, .ok true, none, none, .ok [⟨some (.ring 1), shelfItem.rect, true⟩],
        .ok [.ring 1]⟩,
        some ⟨.ok ⟨512, 1⟩, .ok false, some tabHeader, none, .ok [], .ok [.ring 2]⟩] }

/-- The second tab has the only entry, dimmed where its header is under a tooltip. -/
theorem hiddenTabs_of_stock :
    let s := (withCompiler Filter.compile eager).run [wantAll, .reconcile stockWindow 0]
    let hover : Option Hover := some ⟨1, tabHeader.rect⟩
    let entry : HiddenTab :=
      ⟨1, "-2-", some tabHeader, some (Color.opaqueRed.withAlpha 45), ["Ring1"]⟩
    s.settings.enable = true ∧ s.hiddenTabs hover = [entry] ∧
      ∃ tab ∈ s.tabs.records, entry.Describes s hover tab := by
  intro s hover entry
  have henable : s.settings.enable = true := rfl
  have hentries : s.hiddenTabs hover = [entry] := by decide +kernel
  obtain ⟨hdescribed, -⟩ := hiddenTabs_described henable hover
  rw [hentries] at hdescribed
  obtain ⟨tab, tabs, hdescribes, -, hlisted⟩ := List.forall₂_cons_left_iff.mp hdescribed
  have htab := hlisted ▸ List.mem_cons_self
  exact ⟨henable, hentries, tab, (List.mem_filter.mp htab).1, hdescribes⟩

end Session

end ShopLens
