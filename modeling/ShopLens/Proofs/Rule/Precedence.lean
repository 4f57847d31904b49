import ShopLens.Rule.Match

/-!
# ShopLens.Proofs.Rule.Precedence

Which rule gives several items their color. For one item the rules are gone through; for several items,
at each rule, the items. Both searches are told by places in the rule set: the first one ends at the
first rule that matches the item (`RuleSet.firstPlace?`), the second one at the first rule that matches
any of them, and that is the least of the places at which the items by themselves are matched first
(`RuleSet.findIdx?_any_eq_some_iff`).

So the color of several items depends on which items there are, but not on their order or number, and
with more items it can only come from an earlier rule (`RuleSet.colorOfAny_decided`).
-/

namespace ShopLens

namespace RuleSet

variable (s : RuleSet) (limits : AffixLimits)

/-! ## places -/

/-- The place of the first rule that matches an item. -/
def firstPlace? (l : Listing) : Option Nat := s.bindings.findIdx? (·.isMatch limits l)

/-- The rule at a place decides on the color of some items: it is the first to match one of them, and none
of them is matched first by a rule before it. -/
structure Decides (ls : List Listing) (i : Nat) : Prop where
  exists_item : ∃ l ∈ ls, s.firstPlace? limits l = some i
  le_place : ∀ l ∈ ls, ∀ j, s.firstPlace? limits l = some j → i ≤ j

theorem firstMatch?_eq_bind (l : Listing) :
    s.firstMatch? limits l = (s.firstPlace? limits l).bind (s.bindings[·]?) :=
  List.find?_eq_bind_findIdx?_getElem?

variable {s limits} {ls ls' : List Listing} {i : Nat}

/-- The rule that matches an item at some place stands at its first place or behind it. -/
theorem exists_firstPlace?_le {l : Listing} (hi : i < s.bindings.length)
    (h : s.bindings[i].isMatch limits l = true) : ∃ j ≤ i, s.firstPlace? limits l = some j := by
  cases hplace : s.firstPlace? limits l with
  | none =>
      have hnone := List.findIdx?_eq_none_iff.mp hplace _ (List.getElem_mem hi)
      rw [h] at hnone
      contradiction
  | some j =>
      obtain ⟨hj, -, hbefore⟩ := List.findIdx?_eq_some_iff_getElem.mp hplace
      exact ⟨j, Nat.le_of_not_lt fun hlt => hbefore i hlt h, rfl⟩

/-- **The first rule that matches any of some items** is the one that decides on their color. -/
theorem findIdx?_any_eq_some_iff :
    (s.bindings.findIdx? fun b => ls.any (b.isMatch limits ·)) = some i ↔
      s.Decides limits ls i := by
  rw [List.findIdx?_eq_some_iff_getElem]
  constructor
  · rintro ⟨hi, hany, hbefore⟩
    have hearlier (l : Listing) (hl : l ∈ ls) (j : Nat) (hlt : j < i) :
        ¬s.bindings[j].isMatch limits l = true := fun hmatch =>
      hbefore j hlt (List.any_eq_true.mpr ⟨l, hl, hmatch⟩)
    obtain ⟨l, hl, hmatch⟩ := List.any_eq_true.mp hany
    refine ⟨⟨l, hl, ?_⟩, fun l' hl' j hplace => Nat.le_of_not_lt fun hlt => ?_⟩
    · exact List.findIdx?_eq_some_iff_getElem.mpr ⟨hi, hmatch, hearlier l hl⟩
    · obtain ⟨hj, hmatch', -⟩ := List.findIdx?_eq_some_iff_getElem.mp hplace
      exact hearlier l' hl' j hlt hmatch'
  · rintro ⟨⟨l, hl, hplace⟩, hle⟩
    obtain ⟨hi, hmatch, -⟩ := List.findIdx?_eq_some_iff_getElem.mp hplace
    refine ⟨hi, List.any_eq_true.mpr ⟨l, hl, hmatch⟩, fun j hlt hany => ?_⟩
    obtain ⟨l', hl', hmatch'⟩ := List.any_eq_true.mp hany
    obtain ⟨k, hk, hplace'⟩ := exists_firstPlace?_le (Nat.lt_trans hlt hi) hmatch'
    have hik := hle l' hl' k hplace'
    omega

/-! ## colors -/

variable (default : Color)

/-- The color of some items is that of the rule that decides on it. -/
theorem colorOfAny_of_decides (h : s.Decides limits ls i) :
    ∃ b, s.bindings[i]? = some b ∧ s.colorOfAny limits default ls = b.color := by
  have hfirst := findIdx?_any_eq_some_iff.mpr h
  obtain ⟨hi, -, -⟩ := List.findIdx?_eq_some_iff_getElem.mp hfirst
  refine ⟨s.bindings[i], List.getElem?_eq_getElem hi, ?_⟩
  rw [colorOfAny, List.find?_eq_bind_findIdx?_getElem?, hfirst, Option.bind_some,
    List.getElem?_eq_getElem hi]
  rfl

/-- Where a rule matches one of some items, a rule decides on their color. -/
theorem exists_decides (h : ∃ l ∈ ls, (s.firstMatch? limits l).isSome = true) :
    ∃ i, s.Decides limits ls i := by
  obtain ⟨l, hl, hmatch⟩ := h
  obtain ⟨b, hb, hmatch⟩ := List.find?_isSome.mp hmatch
  have hany : s.bindings.any (fun b => ls.any (b.isMatch limits ·)) = true :=
    List.any_eq_true.mpr ⟨b, hb, List.any_eq_true.mpr ⟨l, hl, hmatch⟩⟩
  rw [← List.findIdx?_isSome] at hany
  obtain ⟨i, hi⟩ := Option.isSome_iff_exists.mp hany
  exact ⟨i, findIdx?_any_eq_some_iff.mp hi⟩

/-- Items that no rule matches have the default color. -/
theorem colorOfAny_of_none (h : ∀ l ∈ ls, s.firstMatch? limits l = none) :
    s.colorOfAny limits default ls = default := by
  have hnone : (s.bindings.find? fun b => ls.any (b.isMatch limits ·)) = none := by
    refine List.find?_eq_none.mpr fun b hb hany => ?_
    obtain ⟨l, hl, hmatch⟩ := List.any_eq_true.mp hany
    exact List.find?_eq_none.mp (h l hl) b hb hmatch
  rw [colorOfAny, hnone]
  rfl

theorem colorOfAny_singleton (l : Listing) :
    s.colorOfAny limits default [l] = s.colorOf limits default l := by
  simp [colorOfAny, colorOf, firstMatch?]

/-- Lists of the same items have the same color. -/
theorem colorOfAny_congr (h : ∀ l, l ∈ ls' ↔ l ∈ ls) :
    s.colorOfAny limits default ls' = s.colorOfAny limits default ls := by
  have hany (b : Binding) : ls'.any (b.isMatch limits ·) = ls.any (b.isMatch limits ·) := by
    simp only [List.any_eq, h]
  simp only [colorOfAny, hany]

/-- With more items an earlier rule may decide, but no later one. -/
theorem exists_decides_le (h : ls ⊆ ls') (hi : s.Decides limits ls i) :
    ∃ j ≤ i, s.Decides limits ls' j := by
  have hmore (b : Binding) (hany : ls.any (b.isMatch limits ·) = true) :
      ls'.any (b.isMatch limits ·) = true := by
    obtain ⟨l, hl, hmatch⟩ := List.any_eq_true.mp hany
    exact List.any_eq_true.mpr ⟨l, h hl, hmatch⟩
  obtain ⟨j, hj, hfirst⟩ := List.findIdx?_eq_some_le_of_findIdx?_eq_some (fun b _ => hmore b)
    (findIdx?_any_eq_some_iff.mpr hi)
  exact ⟨j, hj, findIdx?_any_eq_some_iff.mp hfirst⟩

/-- **The color of several items** is that of the rule that stands first among those that match one of
them first, and the default where no rule matches any of them. So one item has its color by itself, the
order and the number of the items do not matter, and more items move the rule that decides only to the
front. -/
theorem colorOfAny_decided (s : RuleSet) (limits : AffixLimits) (default : Color)
    (ls : List Listing) :
    ((∃ l ∈ ls, (s.firstMatch? limits l).isSome = true) →
        ∃ i b, s.Decides limits ls i ∧ s.bindings[i]? = some b ∧
          (∃ l ∈ ls, s.firstMatch? limits l = some b) ∧
          s.colorOfAny limits default ls = b.color) ∧
      ((∀ l ∈ ls, s.firstMatch? limits l = none) → s.colorOfAny limits default ls = default) ∧
      (∀ l, s.colorOfAny limits default [l] = s.colorOf limits default l) ∧
      (∀ ls', (∀ l, l ∈ ls' ↔ l ∈ ls) →
        s.colorOfAny limits default ls' = s.colorOfAny limits default ls) ∧
      ∀ ls', ls ⊆ ls' → ∀ i, s.Decides limits ls i → ∃ j ≤ i, s.Decides limits ls' j := by
  refine ⟨fun h => ?_, colorOfAny_of_none default, colorOfAny_singleton default,
    fun _ => colorOfAny_congr default, fun _ hsub _ => exists_decides_le hsub⟩
  obtain ⟨i, hi⟩ := exists_decides h
  obtain ⟨b, hb, hcolor⟩ := colorOfAny_of_decides default hi
  obtain ⟨l, hl, hplace⟩ := hi.exists_item
  have hfirst : s.firstMatch? limits l = some b := by
    rw [s.firstMatch?_eq_bind, hplace, Option.bind_some, hb]
  exact ⟨i, b, hi, hb, ⟨l, hl, hfirst⟩, hcolor⟩

/-! ## two rules and two items -/

/-- A rule for rings, and behind it one for everything. -/
def ringsFirst : RuleSet :=
  ⟨[.active 0 { name := "rings", location := "rings.ifl" } (fun _ l => .ok (l.name == "Ring1")) {},
    .active 1 { name := "all", location := "all.ifl", color := .lime } (fun _ _ => .ok true) {}]⟩

/-- An item with a name, on the first tab. -/
def labelled (name : String) : Listing :=
  .shown { Item.ring 1 with name } .shopItem ⟨100, 100, 50, 50⟩ 0 .zero

/-- A belt is matched by the second rule only. With a ring behind it the first rule decides. -/
theorem colorOfAny_of_ringsFirst :
    let items := [labelled "Belt1", labelled "Ring1"]
    (ringsFirst.firstMatch? {} (labelled "Belt1")).isSome = true ∧
      ringsFirst.colorOf {} .opaqueRed (labelled "Belt1") = .lime ∧
      ringsFirst.Decides {} items 0 ∧ ringsFirst.colorOfAny {} .opaqueRed items = .opaqueRed := by
  intro items
  have hmatch : (ringsFirst.firstMatch? {} (labelled "Belt1")).isSome = true := rfl
  obtain ⟨hdecided, -⟩ := ringsFirst.colorOfAny_decided {} .opaqueRed items
  obtain ⟨i, b, hi, hb, -, hcolor⟩ := hdecided ⟨_, List.mem_cons_self, hmatch⟩
  obtain rfl : i = 0 := Nat.le_zero.mp (hi.le_place (labelled "Ring1") (by simp [items]) 0 rfl)
  obtain rfl := Option.some.inj hb
  exact ⟨hmatch, rfl, hi, hcolor⟩

end RuleSet

end ShopLens
