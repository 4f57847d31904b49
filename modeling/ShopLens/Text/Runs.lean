/-!
# ShopLens.Text.Runs

Sets of code points, written as the sorted list of the points where membership changes: the set
holds the first number up to the second (excluded), the third up to the fourth, and so on. The
tables of character properties are of this form.
-/

namespace ShopLens.Text

/-- Whether `n` lies in one of the runs. The runs ascend, so the search stops at the first one that
ends beyond `n`. -/
def inRuns : List Nat → Nat → Bool
  | start :: stop :: runs, n => if n < stop then decide (start ≤ n) else inRuns runs n
  | _, _ => false

/-- A run that ends beyond `n` decides. -/
theorem inRuns_of_lt {start stop n : Nat} {runs : List Nat} (h : n < stop) :
    inRuns (start :: stop :: runs) n = decide (start ≤ n) := by
  simp [inRuns, h]

/-- A run that ends at or before `n` is passed over. -/
theorem inRuns_of_le {start stop n : Nat} {runs : List Nat} (h : stop ≤ n) :
    inRuns (start :: stop :: runs) n = inRuns runs n := by
  simp [inRuns, Nat.not_lt.mpr h]

end ShopLens.Text
