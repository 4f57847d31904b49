import ShopLens.Rule.Binding

/-!
# ShopLens.Rule.Match

Which rule takes a listed item, and the color of its frame. The first rule that matches counts. A rule
that asks for open affixes matches only items laid out on a real tab, and a condition that fails does
not match.
-/

namespace ShopLens

open ShopLens.Rule (Thresholds)

/-- Whether an item has the open affixes that a rule asks for. -/
def Rule.Thresholds.admits (t : Thresholds) (limits : AffixLimits) (l : Listing) : Bool :=
  !t.any
    || (0 ≤ l.tab && l.displayed
      && t.prefixes.all (· ≤ limits.openCount l .prefixMod)
      && t.suffixes.all (· ≤ limits.openCount l .suffixMod))

/-- Whether a rule matches an item. -/
def Binding.isMatch (b : Binding) (limits : AffixLimits) (l : Listing) : Bool :=
  b.enabled
    && match b.predicate with
      | none => false
      | some predicate =>
        b.thresholds.admits limits l
          && match predicate limits l with
            | .ok answer => answer
            | .error _ => false

/-- A rule that matches an item which is not laid out on a real tab asks for no open affixes. -/
theorem Binding.any_thresholds_of_isMatch {b : Binding} {limits : AffixLimits} {l : Listing}
    (h : b.isMatch limits l = true) (hl : l.tab < 0 ∨ l.displayed = false) :
    b.thresholds.any = false := by
  cases hp : b.predicate with
  | none => simp [isMatch, hp] at h
  | some predicate =>
      have hadmits : b.thresholds.admits limits l = true := by
        simp only [isMatch, hp, Bool.and_eq_true] at h
        exact h.2.1
      cases hany : b.thresholds.any with
      | false => rfl
      | true =>
          simp only [Thresholds.admits, hany, Bool.not_true, Bool.false_or, Bool.and_eq_true,
            decide_eq_true_eq] at hadmits
          obtain ⟨⟨⟨htab, hdisplayed⟩, -⟩, -⟩ := hadmits
          rcases hl with hneg | hhidden
          · omega
          · rw [hdisplayed] at hhidden
            contradiction

namespace RuleSet

variable (s : RuleSet) (limits : AffixLimits)

/-- The first rule that matches an item. -/
def firstMatch? (l : Listing) : Option Binding := s.bindings.find? (·.isMatch limits l)

/-- Whether a rule matches an item. -/
def isMatch (l : Listing) : Bool := (s.firstMatch? limits l).isSome

/-- The color of the first rule that matches an item. -/
def colorOf (default : Color) (l : Listing) : Color :=
  ((s.firstMatch? limits l).map Binding.color).getD default

/-- The color of the first rule that matches one of several items. -/
def colorOfAny (default : Color) (ls : List Listing) : Color :=
  ((s.bindings.find? fun b => ls.any (b.isMatch limits ·)).map Binding.color).getD default

end RuleSet

end ShopLens
