import ShopLens.Affix
import ShopLens.Decimal.Numeral
import ShopLens.Filter.Token
import ShopLens.Text.Blank
import ShopLens.Text.Letters

/-!
# ShopLens.Rule.Threshold

Comparisons of the number of open affixes with a number, such as `OpenPrefixCount() >= 2`, are taken
out of a rule text: `true` stands in their place, and together they give the least number of open
affixes of each kind that the rule asks for.

* `>=` and `>` raise that number, `<` and `<=` leave it, and `==` sets it, whatever else is there;
  of several `==` the last one counts.
* Between the parts of a comparison there may be blanks, but not within the parentheses.
* Numbers above `maxAffixes` count as `maxAffixes`, and so do numbers with other than ASCII digits.
-/

namespace ShopLens.Rule

open ShopLens.Text
open ShopLens.Filter (Comparison)

/-! ## comparisons -/

/-- A comparison of a number of open affixes with a number. -/
structure Bound where
  op : Comparison
  value : Nat
deriving DecidableEq, Repr

/-- The name of the function that counts the open affixes of a kind. -/
def countName : AffixKind → List Char
  | .prefixMod => "OpenPrefixCount".toList
  | .suffixMod => "OpenSuffixCount".toList

/-- Reads a comparison operator other than `!=`. -/
def operator? : List Char → Option (Comparison × List Char)
  | '=' :: '=' :: r => some (.eq, r)
  | '>' :: '=' :: r => some (.ge, r)
  | '<' :: '=' :: r => some (.le, r)
  | '>' :: r => some (.gt, r)
  | '<' :: r => some (.lt, r)
  | _ => none

/-- The number that decimal digits write. -/
def numberOf (digits : List Char) : Nat :=
  if digits.all Char.isDigit then min (Decimal.ofDigits digits) maxAffixes else maxAffixes

/-- A comparison read off the front of `cs`. -/
structure Found (cs : List Char) where
  bound : Bound
  rest : List Char
  length_rest_lt : rest.length < cs.length

theorem length_of_isPrefixOf? {word cs rest : List Char} (h : word.isPrefixOf? cs = some rest) :
    rest.length + word.length = cs.length := by
  induction word generalizing cs with
  | nil =>
    obtain rfl := Option.some.inj h
    rfl
  | cons w ws ih =>
    cases cs with
    | nil => contradiction
    | cons c cs =>
      change (if w == c then ws.isPrefixOf? cs else none) = some rest at h
      split at h
      · simp only [List.length_cons]
        have := ih h
        omega
      · simp at h

theorem length_of_operator? {cs rest : List Char} {op : Comparison}
    (h : operator? cs = some (op, rest)) : rest.length < cs.length := by
  unfold operator? at h
  split at h <;> grind

theorem length_dropWhile_le (p : Char → Bool) (cs : List Char) :
    (cs.dropWhile p).length ≤ cs.length := (List.dropWhile_sublist p).length_le

/-- Reads a comparison of the number of open affixes of a kind. -/
def found? (k : AffixKind) (cs : List Char) : Option (Found cs) :=
  match hn : (countName k).isPrefixOf? cs with
  | none => none
  | some afterName =>
    match hp : ['(', ')'].isPrefixOf? (afterName.dropWhile isBlank) with
    | none => none
    | some afterCall =>
      match ho : operator? (afterCall.dropWhile isBlank) with
      | none => none
      | some (op, afterOp) =>
        let digits := (afterOp.dropWhile isBlank).takeWhile isDecimal
        if digits.isEmpty then none
        else
          some ⟨⟨op, numberOf digits⟩, (afterOp.dropWhile isBlank).dropWhile isDecimal, by
            have := length_of_isPrefixOf? hn
            have := length_of_isPrefixOf? hp
            have := length_of_operator? ho
            have := length_dropWhile_le isBlank afterName
            have := length_dropWhile_le isBlank afterCall
            have := length_dropWhile_le isBlank afterOp
            have := length_dropWhile_le isDecimal (afterOp.dropWhile isBlank)
            omega⟩

/-- Takes the comparisons of a kind out of a text, from left to right: what they are, and the text
with `true` in their place. -/
def extract (k : AffixKind) (cs : List Char) : List Bound × List Char :=
  match cs with
  | [] => ([], [])
  | c :: r =>
    match found? k (c :: r) with
    | some f =>
      let (bounds, text) := extract k f.rest
      (f.bound :: bounds, ['t', 'r', 'u', 'e'] ++ text)
    | none =>
      let (bounds, text) := extract k r
      (bounds, c :: text)
termination_by cs.length
decreasing_by
  · exact f.length_rest_lt
  · simp

/-! ## the numbers asked for -/

/-- The least number that a comparison asks for. -/
def Bound.least? (b : Bound) : Option Nat :=
  match b.op with
  | .ge => some b.value
  | .gt => some (min (b.value + 1) maxAffixes)
  | _ => none

/-- The number that a comparison asks for exactly. -/
def Bound.exact? (b : Bound) : Option Nat := if b.op = .eq then some b.value else none

/-- The least number that several comparisons ask for. -/
def leastOf (bounds : List Bound) : Option Nat :=
  match (bounds.filterMap Bound.exact?).getLast? with
  | some n => some n
  | none => (bounds.filterMap Bound.least?).max?

/-- The least numbers of open affixes that a rule asks for. -/
structure Thresholds where
  prefixes : Option Nat := none
  suffixes : Option Nat := none
deriving DecidableEq, Repr

/-- Whether a rule asks for open affixes. -/
def Thresholds.any (t : Thresholds) : Bool := t.prefixes.isSome || t.suffixes.isSome

end ShopLens.Rule
