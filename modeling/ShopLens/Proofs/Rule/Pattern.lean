import Mathlib.Computability.Language
import ShopLens.Proofs.Rule.Comparisons

/-!
# ShopLens.Proofs.Rule.Pattern

The comparisons of open affixes as a regular language. `pattern k` is the pattern that texts are searched
for, said without the function that searches; a text belongs to it just when it writes a bound
(`mem_pattern_iff`).

* `exists_found?_of_infix` — where a text of the pattern stands anywhere, a comparison is found;
* `replaced_substitute` — a pass puts `true` in the place of texts of the pattern and does nothing else;
* `expression_without_comparisons` — a text made ready has no piece that belongs to the pattern.
-/

namespace ShopLens.Rule

open ShopLens.Text
open ShopLens.Filter (Comparison Symbol)
open scoped Computability

/-! ## the pattern -/

/-- The texts of a single character with a property. -/
def oneOf (p : Char → Bool) : Language Char := {w | ∃ c, p c = true ∧ w = [c]}

/-- Comparisons of the number of open affixes of a kind whose operator and digits are from given
languages. -/
def comparisonsWith (k : AffixKind) (operators digits : Language Char) : Language Char :=
  {countName k} * ((oneOf isBlank)∗ * ({['(', ')']} * ((oneOf isBlank)∗ *
    (operators * ((oneOf isBlank)∗ * digits)))))

/-- The pattern of comparisons of a kind. -/
def pattern (k : AffixKind) : Language Char :=
  comparisonsWith k {['=', '='], ['>', '='], ['<', '='], ['>'], ['<']}
    (oneOf isDecimal * (oneOf isDecimal)∗)

/-- A bound as it is written: an operator other than `!=` and digits. -/
structure WrittenBound where
  op : Comparison
  digits : List Char
  op_ne : op ≠ .ne
  digits_ne : digits ≠ []
  isDecimal_of_mem : ∀ c ∈ digits, isDecimal c = true

namespace WrittenBound

/-- The texts that write the bound for a kind. -/
def texts (w : WrittenBound) (k : AffixKind) : Language Char :=
  comparisonsWith k {(Symbol.cmp w.op).chars} {w.digits}

/-- The bound that is meant. -/
def bound (w : WrittenBound) : Bound := ⟨w.op, numberOf w.digits⟩

end WrittenBound

section Languages

variable {p : Char → Bool} {k : AffixKind} {operators digits : Language Char} {m : List Char}

theorem mem_kstar_oneOf_iff : m ∈ (oneOf p)∗ ↔ ∀ c ∈ m, p c = true := by
  rw [Language.mem_kstar]
  constructor
  · rintro ⟨pieces, rfl, hpieces⟩ c hc
    obtain ⟨w, hw, hcw⟩ := List.mem_flatten.mp hc
    obtain ⟨d, hd, rfl⟩ := hpieces w hw
    rwa [List.mem_singleton.mp hcw]
  · intro h
    refine ⟨m.map ([·]), ?_, ?_⟩
    · rw [← List.flatMap_def, List.flatMap_singleton']
    · intro w hw
      obtain ⟨c, hc, rfl⟩ := List.mem_map.mp hw
      exact ⟨c, h c hc, rfl⟩

theorem mem_oneOf_mul_kstar_iff :
    m ∈ oneOf p * (oneOf p)∗ ↔ m ≠ [] ∧ ∀ c ∈ m, p c = true := by
  rw [Language.mem_mul]
  constructor
  · rintro ⟨_, ⟨c, hc, rfl⟩, r, hr, rfl⟩
    rw [mem_kstar_oneOf_iff] at hr
    exact ⟨by simp, by simpa using ⟨hc, hr⟩⟩
  · rintro ⟨hne, hm⟩
    obtain ⟨c, r, rfl⟩ := List.exists_cons_of_ne_nil hne
    simp only [List.mem_cons, forall_eq_or_imp] at hm
    exact ⟨[c], ⟨c, hm.1, rfl⟩, r, mem_kstar_oneOf_iff.mpr hm.2, rfl⟩

/-- The parts of a comparison. -/
theorem mem_comparisonsWith_iff :
    m ∈ comparisonsWith k operators digits ↔ ∃ g₁ g₂ g₃ : List Char, ∃ o ∈ operators, ∃ ds ∈ digits,
      (∀ c ∈ g₁, isBlank c = true) ∧ (∀ c ∈ g₂, isBlank c = true) ∧ (∀ c ∈ g₃, isBlank c = true) ∧
        m = countName k ++ (g₁ ++ (['(', ')'] ++ (g₂ ++ (o ++ (g₃ ++ ds))))) := by
  simp only [comparisonsWith, Language.mem_mul, mem_kstar_oneOf_iff]
  constructor
  · rintro ⟨_, rfl, _, ⟨g₁, h₁, _, ⟨_, rfl, _, ⟨g₂, h₂, _, ⟨o, ho, _, ⟨g₃, h₃, ds, hds, rfl⟩, rfl⟩,
      rfl⟩, rfl⟩, rfl⟩, rfl⟩
    exact ⟨g₁, g₂, g₃, o, ho, ds, hds, h₁, h₂, h₃, rfl⟩
  · rintro ⟨g₁, g₂, g₃, o, ho, ds, hds, h₁, h₂, h₃, rfl⟩
    exact ⟨_, rfl, _, ⟨g₁, h₁, _, ⟨_, rfl, _, ⟨g₂, h₂, _, ⟨o, ho, _, ⟨g₃, h₃, ds, hds, rfl⟩, rfl⟩,
      rfl⟩, rfl⟩, rfl⟩, rfl⟩

end Languages

/-- The operators of the pattern are those other than `!=`. -/
theorem mem_operators_iff {o : List Char} :
    o ∈ ({['=', '='], ['>', '='], ['<', '='], ['>'], ['<']} : Language Char) ↔
      ∃ op : Comparison, op ≠ .ne ∧ o = (Symbol.cmp op).chars := by
  constructor
  · rintro (rfl | rfl | rfl | rfl | rfl)
    · exact ⟨.eq, by decide, rfl⟩
    · exact ⟨.ge, by decide, rfl⟩
    · exact ⟨.le, by decide, rfl⟩
    · exact ⟨.gt, by decide, rfl⟩
    · exact ⟨.lt, by decide, rfl⟩
  · rintro ⟨op, hop, rfl⟩
    cases op with
    | eq => exact .inl rfl
    | ne => contradiction
    | ge => exact .inr (.inl rfl)
    | le => exact .inr (.inr (.inl rfl))
    | gt => exact .inr (.inr (.inr (.inl rfl)))
    | lt => exact .inr (.inr (.inr (.inr rfl)))

section Members

variable {k : AffixKind} {m : List Char}

theorem WrittenBound.writes {w : WrittenBound} (h : m ∈ w.texts k) : Writes k m w.bound := by
  obtain ⟨g₁, g₂, g₃, _, rfl, _, rfl, h₁, h₂, h₃, rfl⟩ := mem_comparisonsWith_iff.mp h
  exact .mk w.op w.op_ne h₁ h₂ h₃ w.digits_ne w.isDecimal_of_mem

theorem Writes.exists_writtenBound {b : Bound} (h : Writes k m b) :
    ∃ w : WrittenBound, w.bound = b ∧ m ∈ w.texts k := by
  obtain ⟨op, hop, h₁, h₂, h₃, hne, hd⟩ := h
  exact ⟨⟨op, _, hop, hne, hd⟩, rfl,
    mem_comparisonsWith_iff.mpr ⟨_, _, _, _, rfl, _, rfl, h₁, h₂, h₃, rfl⟩⟩

/-- The texts of the pattern are those that write a bound. -/
theorem mem_pattern_iff : m ∈ pattern k ↔ ∃ w : WrittenBound, m ∈ w.texts k := by
  rw [pattern, mem_comparisonsWith_iff]
  constructor
  · rintro ⟨g₁, g₂, g₃, o, ho, ds, hds, h₁, h₂, h₃, rfl⟩
    obtain ⟨op, hop, rfl⟩ := mem_operators_iff.mp ho
    obtain ⟨hne, hd⟩ := mem_oneOf_mul_kstar_iff.mp hds
    exact ⟨⟨op, ds, hop, hne, hd⟩,
      mem_comparisonsWith_iff.mpr ⟨g₁, g₂, g₃, _, rfl, _, rfl, h₁, h₂, h₃, rfl⟩⟩
  · rintro ⟨w, hw⟩
    obtain ⟨g₁, g₂, g₃, _, rfl, _, rfl, h₁, h₂, h₃, rfl⟩ := mem_comparisonsWith_iff.mp hw
    exact ⟨g₁, g₂, g₃, _, mem_operators_iff.mpr ⟨w.op, w.op_ne, rfl⟩, _,
      mem_oneOf_mul_kstar_iff.mpr ⟨w.digits_ne, w.isDecimal_of_mem⟩, h₁, h₂, h₃, rfl⟩

theorem Writes.mem_pattern {b : Bound} (h : Writes k m b) : m ∈ pattern k := by
  obtain ⟨w, -, hw⟩ := h.exists_writtenBound
  exact mem_pattern_iff.mpr ⟨w, hw⟩

/-! ## searching for the pattern -/

/-- A comparison with more digits behind it is a comparison. -/
theorem Writes.append_digits {b : Bound} (h : Writes k m b) {ds : List Char}
    (hds : ∀ c ∈ ds, isDecimal c = true) : ∃ b', Writes k (m ++ ds) b' := by
  obtain ⟨op, hop, h₁, h₂, h₃, hne, hd⟩ := h
  rename_i g₁ g₂ g₃ digits
  refine ⟨⟨op, numberOf (digits ++ ds)⟩, ?_⟩
  have hall : ∀ c ∈ digits ++ ds, isDecimal c = true := fun c hc =>
    (List.mem_append.mp hc).elim (hd c) (hds c)
  have hwrites := Writes.mk (k := k) op hop h₁ h₂ h₃ (by simp [hne]) hall
  simpa only [List.append_assoc] using hwrites

/-- Where a text starts with one of the pattern, a comparison is found: of the digits as many are taken
as there are. -/
theorem isSome_found?_of_mem_pattern (h : m ∈ pattern k) (r : List Char) :
    (found? k (m ++ r)).isSome = true := by
  obtain ⟨w, hw⟩ := mem_pattern_iff.mp h
  have hdigits : ∀ c ∈ r.takeWhile isDecimal, isDecimal c = true :=
    fun c hc => List.all_eq_true.mp List.all_takeWhile c hc
  obtain ⟨b, hb⟩ := (WrittenBound.writes hw).append_digits hdigits
  obtain ⟨f, hf, -⟩ := found?_of_writes hb (Filter.head?_dropWhile_any isDecimal r)
  have htext : m ++ r = m ++ r.takeWhile isDecimal ++ r.dropWhile isDecimal := by
    rw [List.append_assoc, List.takeWhile_append_dropWhile]
  rw [htext, hf]
  rfl

/-- Nothing is found just where no text of the pattern stands. -/
theorem found?_eq_none_iff {cs : List Char} :
    found? k cs = none ↔ ∀ m ∈ pattern k, ¬m <+: cs := by
  constructor
  · rintro hnone m hm ⟨r, rfl⟩
    simpa [hnone] using isSome_found?_of_mem_pattern hm r
  · intro h
    cases hf : found? k cs with
    | none => rfl
    | some f =>
        obtain ⟨m, hcs, hm, -⟩ := writes_of_found? hf
        exact absurd ⟨f.rest, hcs.symm⟩ (h m hm.mem_pattern)

end Members

/-- Where nothing is found, no piece of the text belongs to the pattern. -/
theorem not_infix_of_extract {k : AffixKind} {cs : List Char} (h : (extract k cs).1 = []) {m : List Char}
    (hm : m ∈ pattern k) : ¬m <:+: cs := by
  rw [extract_eq_substitute] at h
  induction cs using substitute.induct (found? k) with
  | case1 =>
      intro hinfix
      obtain rfl := List.infix_nil.mp hinfix
      obtain ⟨f, -⟩ := Option.isSome_iff_exists.mp (isSome_found?_of_mem_pattern hm [])
      exact absurd f.length_rest_lt (Nat.not_lt_zero _)
  | case2 c r f hf bounds text hrest ih => simp [substitute_of_some hf] at h
  | case3 c r hf bounds text hrest ih =>
      rw [substitute_of_none hf] at h
      rw [List.infix_cons_iff]
      rintro (hstart | hinfix)
      · exact found?_eq_none_iff.mp hf m hm hstart
      · exact ih h hinfix

/-! ## the rewritten text -/

/-- The second text is the first one with `true` in the place of some texts of the pattern. -/
inductive Replaced : List Char → List Char → Prop where
  | nil : Replaced [] []
  | keep (c : Char) {r e : List Char} : Replaced r e → Replaced (c :: r) (c :: e)
  | put {k : AffixKind} {m r e : List Char} (hm : m ∈ pattern k) :
      Replaced r e → Replaced (m ++ r) (['t', 'r', 'u', 'e'] ++ e)

/-- A pass puts `true` in the place of comparisons. -/
theorem replaced_substitute (cs : List Char) : Replaced cs (substitute foundEither? cs).2 := by
  induction cs using substitute.induct foundEither? with
  | case1 => simpa [substitute] using Replaced.nil
  | case2 c r f hf bounds text hrest ih =>
      obtain ⟨k, hk⟩ := exists_of_foundEither? hf
      obtain ⟨m, hcs, hm, -⟩ := writes_of_found? hk
      have hput := Replaced.put hm.mem_pattern ih
      rw [← hcs] at hput
      rwa [substitute_of_some hf]
  | case3 c r hf bounds text hrest ih =>
      rw [substitute_of_none hf]
      exact .keep c ih

/-- **No comparison is left.** The expression of a text made ready is its joined lines with `true` in the
place of comparisons, and no piece of it belongs to the pattern of either kind. -/
theorem expression_without_comparisons (text : String) :
    Replaced (joinLines (stripComments text.toList)) (prepare text).expression.toList ∧
      ∀ k, ¬∃ m ∈ pattern k, m <:+: (prepare text).expression.toList := by
  simp only [prepare_eq, String.toList_ofList]
  refine ⟨replaced_substitute _, ?_⟩
  rintro k ⟨m, hm, hinfix⟩
  refine not_infix_of_extract (k := k) ?_ hm hinfix
  rw [substitute_substitute]

end ShopLens.Rule
