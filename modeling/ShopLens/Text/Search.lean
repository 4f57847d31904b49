/-!
# ShopLens.Text.Search

Whether one text occurs in another, read off the characters. A string is matched by code points, which
finds the same occurrences as matching its UTF-8 bytes: no character starts inside another.
-/

namespace ShopLens.Text

/-- Whether `needle` occurs as a run of neighbours. -/
def occursIn (needle : List Char) : List Char → Bool
  | [] => needle.isEmpty
  | c :: cs => needle.isPrefixOf (c :: cs) || occursIn needle cs

/-- Whether `needle` occurs in `hay`. -/
def within (needle hay : String) : Bool := occursIn needle.toList hay.toList

/-- Whether `hay` starts with `needle`. -/
def opens (needle hay : String) : Bool := needle.toList.isPrefixOf hay.toList

/-- Whether `hay` ends with `needle`. -/
def closes (needle hay : String) : Bool := needle.toList.isSuffixOf hay.toList

theorem occursIn_iff {needle hay : List Char} : occursIn needle hay = true ↔ needle <:+: hay := by
  induction hay with
  | nil => simp [occursIn]
  | cons c cs ih =>
    simp only [occursIn, Bool.or_eq_true, List.isPrefixOf_iff_prefix, ih, List.infix_cons_iff]

end ShopLens.Text
