import ShopLens.Proofs.Rule.Pattern

/-!
# ShopLens.Proofs.Rule.Demands

The numbers of open affixes that a rule asks for, read off its comparisons. `Reads k cs ws` tells which
comparisons of a kind stand in a text, from left to right: what the pattern matches, with as many digits as
there are.

* `exists_reads` — the comparisons of a text can be read;
* `Reads.extract_eq` — they are the ones that are taken out;
* `thresholds_prepare_iff` — what they ask for: of several `==` the last one counts, so the numbers are those
  of a fold that ends with the first `==` just when the two agree.
-/

namespace ShopLens.Rule

open ShopLens.Text
open ShopLens.Filter (Comparison Symbol)

/-! ## reading comparisons -/

/-- The comparisons of a kind in a text, from left to right. -/
inductive Reads (k : AffixKind) : List Char → List WrittenBound → Prop where
  | nil : Reads k [] []
  | take {m r : List Char} {w : WrittenBound} {ws : List WrittenBound} (hm : m ∈ w.texts k)
      (hr : r.head?.any isDecimal = false) : Reads k r ws → Reads k (m ++ r) (w :: ws)
  | skip {c : Char} {r : List Char} {ws : List WrittenBound}
      (hnone : ∀ m ∈ pattern k, ¬m <+: c :: r) : Reads k r ws → Reads k (c :: r) ws

section Reading

variable {k : AffixKind} {cs m r : List Char} {ws : List WrittenBound}

/-- The comparisons of a text are the ones that are taken out of it. -/
theorem Reads.extract_eq (h : Reads k cs ws) : (extract k cs).1 = ws.map WrittenBound.bound := by
  rw [extract_eq_substitute]
  induction h with
  | nil => simp [substitute]
  | take hm hr _ ih =>
      obtain ⟨f, hf, hbound, hrest⟩ := found?_of_writes (WrittenBound.writes hm) hr
      rw [substitute_of_some hf, hbound, hrest, ih]
      rfl
  | skip hnone _ ih => rw [substitute_of_none (found?_eq_none_iff.mpr hnone), ih]

/-- The comparisons of a text can be read. -/
theorem exists_reads (k : AffixKind) (cs : List Char) : ∃ ws, Reads k cs ws := by
  induction cs using substitute.induct (found? k) with
  | case1 => exact ⟨[], .nil⟩
  | case2 c r f hf bounds text hrest ih =>
      obtain ⟨m, hcs, hm, hdigit⟩ := writes_of_found? hf
      obtain ⟨w, -, hw⟩ := hm.exists_writtenBound
      obtain ⟨ws, hws⟩ := ih
      exact ⟨w :: ws, hcs ▸ .take hw hdigit hws⟩
  | case3 c r hf bounds text hrest ih =>
      obtain ⟨ws, hws⟩ := ih
      exact ⟨ws, .skip (found?_eq_none_iff.mp hf) hws⟩

/-- No comparison starts among characters without a capital O. -/
theorem Reads.append (h : Reads k r ws) (hm : 'O' ∉ m) : Reads k (m ++ r) ws := by
  induction m with
  | nil => exact h
  | cons c m ih =>
      simp only [List.mem_cons, not_or] at hm
      exact .skip (found?_eq_none_iff.mp (eq_none_of_capital (capital_found? k) (Ne.symm hm.1))) (ih hm.2)

/-- A comparison of the other kind is passed over. -/
theorem Reads.append_other {k' : AffixKind} {w : WrittenBound} (h : Reads k r ws) (hk : k' ≠ k)
    (hm : m ∈ w.texts k') (hr : r.head?.any isDecimal = false) : Reads k (m ++ r) ws := by
  have hwrites := WrittenBound.writes hm
  obtain ⟨f, hf, -⟩ := found?_of_writes hwrites hr
  have hnone := found?_eq_none_of_found? k hk hf
  obtain ⟨m', rfl, hm'⟩ := hwrites.exists_cons
  exact .skip (found?_eq_none_iff.mp hnone) (h.append hm')

end Reading

namespace WrittenBound

/-- A bound with ASCII digits. -/
def ofAscii (op : Comparison) (digits : List Char) (hop : op ≠ .ne) (hne : digits ≠ [])
    (hd : digits.all Char.isDigit = true) : WrittenBound :=
  ⟨op, digits, hop, hne, fun d hmem => isDecimal_of_isDigit (List.all_eq_true.mp hd d hmem)⟩

/-- The usual way to write a bound. -/
def chars (w : WrittenBound) (k : AffixKind) : List Char :=
  countName k ++ (['(', ')', ' '] ++ ((Symbol.cmp w.op).chars ++ (' ' :: w.digits)))

theorem chars_mem_texts (w : WrittenBound) (k : AffixKind) : w.chars k ∈ w.texts k := by
  have hspace : ∀ c ∈ [' '], isBlank c = true := List.all_iff_forall_prop.mp (by decide)
  exact mem_comparisonsWith_iff.mpr
    ⟨[], [' '], [' '], _, rfl, _, rfl, by simp, hspace, hspace, by simp [chars]⟩

end WrittenBound

/-! ## the numbers asked for -/

/-- The number itself, or the greatest number that is told apart. -/
def capped (n : Nat) : Nat := min n maxAffixes

namespace WrittenBound

/-- Whether the digits are ASCII digits. -/
def IsAscii (w : WrittenBound) : Prop := w.digits.all Char.isDigit = true

instance (w : WrittenBound) : Decidable w.IsAscii := inferInstanceAs (Decidable (_ = true))

/-- The number that the digits write. -/
def number (w : WrittenBound) : Nat := Decimal.ofDigits w.digits

/-- The number that `==` asks for. -/
def pinned? (w : WrittenBound) : Option Nat := if w.op = .eq then some (capped w.number) else none

/-- The least number that `>=` or `>` asks for. -/
def least? (w : WrittenBound) : Option Nat :=
  match w.op with
  | .ge => some (capped w.number)
  | .gt => some (capped (w.number + 1))
  | _ => none

end WrittenBound

/-- The numbers that `==` asks for, from left to right. -/
def exactNumbers (ws : List WrittenBound) : List Nat := ws.filterMap WrittenBound.pinned?

/-- The least numbers that `>=` and `>` ask for, from left to right. -/
def leastNumbers (ws : List WrittenBound) : List Nat := ws.filterMap WrittenBound.least?

/-- What comparisons ask for: the number of the `==` that is picked, or else the greatest of the least
numbers. -/
def demand (pick : List Nat → Option Nat) (ws : List WrittenBound) : Option Nat :=
  (pick (exactNumbers ws)).or (leastNumbers ws).max?

section Numbers

variable {w : WrittenBound} {ws : List WrittenBound}

theorem WrittenBound.value_bound (h : w.IsAscii) : w.bound.value = capped w.number :=
  if_pos h

theorem pinned?_bound (h : w.IsAscii) : w.bound.exact? = w.pinned? := by
  unfold Bound.exact?
  rw [WrittenBound.value_bound h]
  rfl

theorem least?_bound (h : w.IsAscii) : w.bound.least? = w.least? := by
  have hcapped : min (capped w.number + 1) maxAffixes = capped (w.number + 1) := by
    simp only [capped]
    omega
  rw [Bound.least?, WrittenBound.value_bound h, hcapped]
  rfl

/-- The last `==` counts. -/
theorem leastOf_map_bound (h : ∀ w ∈ ws, w.IsAscii) :
    leastOf (ws.map WrittenBound.bound) = demand List.getLast? ws := by
  have hexact : (ws.map WrittenBound.bound).filterMap Bound.exact? = exactNumbers ws := by
    rw [List.filterMap_map]
    exact List.filterMap_congr fun w hw => pinned?_bound (h w hw)
  have hleast : (ws.map WrittenBound.bound).filterMap Bound.least? = leastNumbers ws := by
    rw [List.filterMap_map]
    exact List.filterMap_congr fun w hw => least?_bound (h w hw)
  rw [leastOf, hexact, hleast, demand]
  cases (exactNumbers ws).getLast? <;> rfl

/-- The first `==` is as good as the last one just when both ask for the same number. -/
theorem demand_getLast?_eq_iff :
    demand List.getLast? ws = demand List.head? ws ↔
      (exactNumbers ws).head? = (exactNumbers ws).getLast? := by
  unfold demand
  cases h : exactNumbers ws with
  | nil => simp
  | cons n ns =>
      rw [List.getLast?_cons, List.head?_cons, Option.some_or, Option.some_or, eq_comm]

end Numbers

/-- **What a rule asks for.** With ASCII digits, the number asked for of each kind is that of the last `==`
among its comparisons, or else the greatest that `>=` and `>` ask for, and comparisons of the other kind do
not matter. It is the number of a fold that ends with the first `==` just when this one asks for the same as
the last. -/
theorem thresholds_prepare_iff (text : String) {ws : AffixKind → List WrittenBound}
    (hread : ∀ k, Reads k (joinLines (stripComments text.toList)) (ws k))
    (hascii : ∀ k, ∀ w ∈ ws k, w.IsAscii) :
    (prepare text).thresholds =
        ⟨demand List.getLast? (ws .prefixMod), demand List.getLast? (ws .suffixMod)⟩ ∧
      ((prepare text).thresholds =
          ⟨demand List.head? (ws .prefixMod), demand List.head? (ws .suffixMod)⟩ ↔
        ∀ k, (exactNumbers (ws k)).head? = (exactNumbers (ws k)).getLast?) := by
  have hthresholds : (prepare text).thresholds =
      ⟨demand List.getLast? (ws .prefixMod), demand List.getLast? (ws .suffixMod)⟩ := by
    simp only [prepare_eq, (hread _).extract_eq, leastOf_map_bound (hascii _)]
  refine ⟨hthresholds, ?_⟩
  rw [hthresholds, Thresholds.mk.injEq, demand_getLast?_eq_iff, demand_getLast?_eq_iff]
  constructor
  · rintro ⟨hpre, hsuf⟩ k
    cases k with
    | prefixMod => exact hpre
    | suffixMod => exact hsuf
  · exact fun h => ⟨h _, h _⟩

/-- A bound beyond the greatest number for prefixes, and for suffixes an exact number that a least number
follows. -/
theorem thresholds_of_mixed :
    let text := "OpenPrefixCount() > 4294967295 // none\nOpenSuffixCount() == 1 && OpenSuffixCount() >= 3"
    let above := WrittenBound.ofAscii .gt "4294967295".toList (by decide) (by decide) (by decide)
    let one := WrittenBound.ofAscii .eq "1".toList (by decide) (by decide) (by decide)
    let three := WrittenBound.ofAscii .ge "3".toList (by decide) (by decide) (by decide)
    let ws : AffixKind → List WrittenBound
      | .prefixMod => [above]
      | .suffixMod => [one, three]
    (∀ k, Reads k (joinLines (stripComments text.toList)) (ws k)) ∧ (∀ k, ∀ w ∈ ws k, w.IsAscii) ∧
      (prepare text).thresholds = ⟨some 4294967295, some 1⟩ ∧
      (prepare text).thresholds =
        ⟨demand List.head? (ws .prefixMod), demand List.head? (ws .suffixMod)⟩ := by
  intro text above one three ws
  have hread (k : AffixKind) : Reads k (joinLines (stripComments text.toList)) (ws k) := by
    have hjoin : joinLines (stripComments text.toList) = above.chars .prefixMod ++
        (" || ".toList ++ (one.chars .suffixMod ++ (" && ".toList ++
          (three.chars .suffixMod ++ [])))) := by decide
    have habove := above.chars_mem_texts .prefixMod
    have hone := one.chars_mem_texts .suffixMod
    have hthree := three.chars_mem_texts .suffixMod
    rw [hjoin]
    cases k with
    | prefixMod =>
        have hrest : Reads .prefixMod (three.chars .suffixMod ++ []) [] :=
          Reads.nil.append_other (by decide) hthree rfl
        exact .take habove rfl
          (.append ((hrest.append (by decide)).append_other (by decide) hone rfl) (by decide))
    | suffixMod =>
        have hrest : Reads .suffixMod (three.chars .suffixMod ++ []) [three] :=
          .take hthree rfl .nil
        exact .append_other
          (.append (.take hone rfl (hrest.append (by decide))) (by decide)) (by decide) habove rfl
  have hascii (k : AffixKind) : ∀ w ∈ ws k, w.IsAscii := by
    cases k <;> decide
  obtain ⟨hlast, hfirst⟩ := thresholds_prepare_iff text hread hascii
  exact ⟨hread, hascii, hlast, hfirst.mpr fun k => by cases k <;> rfl⟩

/-- Of two exact numbers the second one is asked for. -/
theorem thresholds_of_two_exact :
    let text := "OpenPrefixCount() == 1 && OpenPrefixCount() == 2"
    let one := WrittenBound.ofAscii .eq "1".toList (by decide) (by decide) (by decide)
    let two := WrittenBound.ofAscii .eq "2".toList (by decide) (by decide) (by decide)
    Reads .prefixMod (joinLines (stripComments text.toList)) [one, two] ∧
      (∀ w ∈ [one, two], w.IsAscii) ∧ demand List.head? [one, two] = some 1 ∧
      (prepare text).thresholds.prefixes = some 2 := by
  intro text one two
  have hread : Reads .prefixMod (joinLines (stripComments text.toList)) [one, two] := by
    have hjoin : joinLines (stripComments text.toList) = one.chars .prefixMod ++
        (" && ".toList ++ (two.chars .prefixMod ++ [])) := by decide
    rw [hjoin]
    exact .take (one.chars_mem_texts _) rfl
      (.append (.take (two.chars_mem_texts _) rfl .nil) (by decide))
  have hascii : ∀ w ∈ [one, two], w.IsAscii := by decide
  refine ⟨hread, hascii, rfl, ?_⟩
  rw [prepare_eq]
  exact (congrArg leastOf hread.extract_eq).trans (leastOf_map_bound hascii)

end ShopLens.Rule
