import Mathlib.Data.List.Basic
import ShopLens.Proofs.Filter.Lexemes
import ShopLens.Rule.Prepared

/-!
# ShopLens.Proofs.Rule.Comparisons

The comparisons that are taken out of rule texts. `Writes k m b` tells which characters write a
comparison, and one is found at the front of a text just when its characters stand there and no further
digit (`writes_of_found?`, `found?_of_writes`).

Both passes over a text, for prefixes and then for suffixes, are one pass that looks for comparisons of
either kind (`extract_extract`), since what a pass leaves holds no comparison that was not there before
(`isSome_found?_of_substitute`). So the two kinds do not get in each other's way, and no comparison is
left (`substitute_substitute`).
-/

namespace ShopLens.Rule

open ShopLens.Text
open ShopLens.Filter (Comparison Symbol Token dropWhile_append_of_stop takeWhile_append_of_stop)

/-! ## one comparison -/

/-- The characters `m` write the comparison `b` of the number of open affixes of a kind. -/
inductive Writes (k : AffixKind) : (m : List Char) → Bound → Prop where
  | mk {g₁ g₂ g₃ digits : List Char} (op : Comparison) (hop : op ≠ .ne)
      (h₁ : ∀ c ∈ g₁, isBlank c = true) (h₂ : ∀ c ∈ g₂, isBlank c = true)
      (h₃ : ∀ c ∈ g₃, isBlank c = true) (hne : digits ≠ [])
      (hd : ∀ c ∈ digits, isDecimal c = true) :
      Writes k (countName k ++ (g₁ ++ (['(', ')'] ++ (g₂ ++ ((Symbol.cmp op).chars ++ (g₃ ++ digits))))))
        ⟨op, numberOf digits⟩

theorem writes_of_operator? {cs rest : List Char} {op : Comparison}
    (h : operator? cs = some (op, rest)) :
    op ≠ .ne ∧ cs = (Symbol.cmp op).chars ++ rest := by
  unfold operator? at h
  split at h
  all_goals cases h
  all_goals exact ⟨by simp, rfl⟩

theorem operator?_append {op : Comparison} (hop : op ≠ .ne) {rest : List Char}
    (h : (Token.sym (.cmp op)).goesOn rest = false) :
    operator? ((Symbol.cmp op).chars ++ rest) = some (op, rest) := by
  have hne (r : List Char) (heq : rest.head? ≠ some '=') : rest ≠ '=' :: r := by
    rintro rfl
    exact heq rfl
  cases op with
  | ne => contradiction
  | gt =>
      have heq : rest.head? ≠ some '=' := by simpa [Token.goesOn] using h
      cases rest <;> simp_all [Symbol.chars, operator?]
  | lt =>
      have heq : rest.head? ≠ some '=' := by simpa [Token.goesOn] using h
      cases rest <;> simp_all [Symbol.chars, operator?]
  | _ => rfl

/-- What is found at the front of a text is a comparison, and the text does not go on with a digit. -/
theorem writes_of_found? {k : AffixKind} {cs : List Char} {f : Found cs} (h : found? k cs = some f) :
    ∃ m, cs = m ++ f.rest ∧ Writes k m f.bound ∧ f.rest.head?.any isDecimal = false := by
  unfold found? at h
  split at h
  · contradiction
  · next afterName hname =>
      split at h
      · contradiction
      · next afterCall hcall =>
          split at h
          · contradiction
          · next op afterOp hop =>
              dsimp only at h
              split at h
              · contradiction
              · next hdigits =>
                  obtain rfl := Option.some.inj h
                  obtain ⟨hne, hopchars⟩ := writes_of_operator? hop
                  rw [List.isPrefixOf?_eq_some_iff_append_eq] at hname hcall
                  have hall (cs : List Char) : ∀ c ∈ cs.takeWhile isBlank, isBlank c = true :=
                    fun c hc => List.all_eq_true.mp List.all_takeWhile c hc
                  refine ⟨_, ?_, .mk op hne (hall afterName) (hall afterCall) (hall afterOp)
                    (by simpa using hdigits) ?_, Filter.head?_dropWhile_any _ _⟩
                  · simp only [List.append_assoc, List.takeWhile_append_dropWhile]
                    rw [← hopchars, List.takeWhile_append_dropWhile, hcall,
                      List.takeWhile_append_dropWhile, hname]
                  · exact fun c hc => List.all_eq_true.mp List.all_takeWhile c hc

/-- A digit is no blank. -/
theorem isBlank_of_isDecimal {c : Char} (h : isDecimal c = true) : isBlank c = false := by
  have hblanks : ∀ b ∈ blanks, isDecimal b = false :=
    List.all_iff_forall_prop.mp (by decide +kernel)
  refine Bool.eq_false_iff.mpr fun hc => ?_
  simp [hblanks c (isBlank_iff.mp hc)] at h

/-- A text that starts with a blank, or is empty, starts with no digit. -/
theorem head?_any_isDecimal_of_blank {cs : List Char} (h : cs.head?.all isBlank = true) :
    cs.head?.any isDecimal = false := by
  cases cs with
  | nil => rfl
  | cons c r =>
      refine Bool.eq_false_iff.mpr fun hc => ?_
      have hblank := isBlank_of_isDecimal (c := c) (by simpa using hc)
      rw [List.head?_cons, Option.all_some, hblank] at h
      contradiction

theorem head?_any_digits {digits rest : List Char} (hne : digits ≠ [])
    (hd : ∀ c ∈ digits, isDecimal c = true) : (digits ++ rest).head?.any isBlank = false := by
  obtain ⟨d, digits, rfl⟩ := List.exists_cons_of_ne_nil hne
  simpa using isBlank_of_isDecimal (hd d (by simp))

/-- Behind an operator stands a blank or a digit, but no equals sign. -/
theorem goesOn_cmp {op : Comparison} {g digits rest : List Char} (hg : ∀ c ∈ g, isBlank c = true)
    (hne : digits ≠ []) (hd : ∀ c ∈ digits, isDecimal c = true) :
    (Token.sym (.cmp op)).goesOn (g ++ (digits ++ rest)) = false := by
  obtain ⟨c, r, hcr, hc⟩ : ∃ c r, g ++ (digits ++ rest) = c :: r ∧ c ≠ '=' := by
    cases g with
    | nil =>
        obtain ⟨d, digits, rfl⟩ := List.exists_cons_of_ne_nil hne
        refine ⟨d, digits ++ rest, rfl, ?_⟩
        rintro rfl
        exact absurd (hd '=' (by simp)) (by decide)
    | cons c g =>
        refine ⟨c, g ++ (digits ++ rest), rfl, ?_⟩
        rintro rfl
        exact absurd (hg '=' (by simp)) (by decide)
  rw [hcr]
  cases op <;> simp [Token.goesOn, hc]

theorem isPrefixOf?_append (word rest : List Char) : word.isPrefixOf? (word ++ rest) = some rest :=
  List.isPrefixOf?_eq_some_iff_append_eq.mpr rfl

/-- A comparison is found where no digit follows it. -/
theorem found?_of_writes {k : AffixKind} {m rest : List Char} {b : Bound} (h : Writes k m b)
    (hr : rest.head?.any isDecimal = false) :
    ∃ f, found? k (m ++ rest) = some f ∧ f.bound = b ∧ f.rest = rest := by
  suffices hmap : (found? k (m ++ rest)).map (fun f => (f.bound, f.rest)) = some (b, rest) by
    obtain ⟨f, hf, heq⟩ := Option.map_eq_some_iff.mp hmap
    exact ⟨f, hf, Prod.mk.inj heq⟩
  obtain ⟨op, hop, h₁, h₂, h₃, hne, hd⟩ := h
  rename_i g₁ g₂ g₃ digits
  have htext : countName k ++ (g₁ ++ (['(', ')'] ++ (g₂ ++ ((Symbol.cmp op).chars ++
      (g₃ ++ digits))))) ++ rest = countName k ++ (g₁ ++ (['(', ')'] ++ (g₂ ++
        ((Symbol.cmp op).chars ++ (g₃ ++ (digits ++ rest)))))) := by
    simp only [List.append_assoc]
  rw [htext]
  have hopHead (x : List Char) : ((Symbol.cmp op).chars ++ x).head?.any isBlank = false := by
    cases op <;> rfl
  unfold found?
  split
  · next hname => simp [isPrefixOf?_append] at hname
  · next afterName hname =>
      obtain rfl := List.append_cancel_left (List.isPrefixOf?_eq_some_iff_append_eq.mp hname)
      split
      · next hcall =>
          rw [dropWhile_append_of_stop h₁ rfl, isPrefixOf?_append] at hcall
          contradiction
      · next afterCall hcall =>
          rw [dropWhile_append_of_stop h₁ rfl, List.isPrefixOf?_eq_some_iff_append_eq] at hcall
          obtain rfl := List.append_cancel_left hcall
          split
          · next hoperator =>
              rw [dropWhile_append_of_stop h₂ (hopHead _), operator?_append hop (goesOn_cmp h₃ hne hd)]
                at hoperator
              contradiction
          · next op' afterOp hoperator =>
              rw [dropWhile_append_of_stop h₂ (hopHead _), operator?_append hop (goesOn_cmp h₃ hne hd)]
                at hoperator
              obtain ⟨rfl, rfl⟩ : op = op' ∧ g₃ ++ (digits ++ rest) = afterOp := by
                simpa using hoperator
              have hdigits : (g₃ ++ (digits ++ rest)).dropWhile isBlank = digits ++ rest :=
                dropWhile_append_of_stop h₃ (head?_any_digits hne hd)
              simp [hdigits, takeWhile_append_of_stop hd hr, dropWhile_append_of_stop hd hr, hne]

/-! ## the characters of a comparison -/

/-- The characters behind the name in a comparison. -/
def isOperand (c : Char) : Bool := isBlank c || isDecimal c || ['(', ')', '=', '>', '<'].contains c

/-- A comparison is a name and characters of which the first one belongs to no name. -/
theorem Writes.exists_tail {k : AffixKind} {m : List Char} {b : Bound} (h : Writes k m b) :
    ∃ d x, m = countName k ++ d :: x ∧ (isBlank d || d == '(') = true ∧
      ∀ c ∈ d :: x, isOperand c = true := by
  obtain ⟨op, hop, h₁, h₂, h₃, hne, hd⟩ := h
  rename_i g₁ g₂ g₃ digits
  have hchars : ∀ c ∈ g₁ ++ (['(', ')'] ++ (g₂ ++ ((Symbol.cmp op).chars ++ (g₃ ++ digits)))),
      isOperand c = true := by
    have hopChars : ∀ c ∈ (Symbol.cmp op).chars, isOperand c = true := by
      cases op <;> first
        | contradiction
        | exact List.all_iff_forall_prop.mp (by decide)
    have hparens : ∀ c ∈ ['(', ')'], isOperand c = true :=
      List.all_iff_forall_prop.mp (by decide)
    intro c hc
    simp only [List.mem_append] at hc
    rcases hc with hc | hc | hc | hc | hc | hc
    · simp [isOperand, h₁ c hc]
    · exact hparens c hc
    · simp [isOperand, h₂ c hc]
    · exact hopChars c hc
    · simp [isOperand, h₃ c hc]
    · simp [isOperand, hd c hc]
  cases g₁ with
  | nil => exact ⟨'(', _, rfl, by decide, hchars⟩
  | cons d g₁ => exact ⟨d, _, rfl, by simp [h₁ d], hchars⟩

/-- A comparison starts with a capital O and has no other one. -/
theorem Writes.exists_cons {k : AffixKind} {m : List Char} {b : Bound} (h : Writes k m b) :
    ∃ m', m = 'O' :: m' ∧ 'O' ∉ m' := by
  obtain ⟨d, x, rfl, -, hx⟩ := h.exists_tail
  have hx' : 'O' ∉ d :: x := fun hmem => absurd (hx 'O' hmem) (by decide)
  obtain ⟨w, hw, hname⟩ : ∃ w, 'O' ∉ w ∧ countName k = 'O' :: w := by
    cases k
    · exact ⟨"penPrefixCount".toList, by decide, rfl⟩
    · exact ⟨"penSuffixCount".toList, by decide, rfl⟩
  refine ⟨w ++ d :: x, by rw [hname]; rfl, ?_⟩
  rw [List.mem_append]
  rintro (hmem | hmem)
  · exact hw hmem
  · exact hx' hmem

/-- A comparison ends with a digit. -/
theorem Writes.getLast? {k : AffixKind} {m : List Char} {b : Bound} (h : Writes k m b) :
    ∃ d, m.getLast? = some d ∧ isDecimal d = true := by
  obtain ⟨op, -, -, -, -, hne, hd⟩ := h
  rename_i digits
  obtain rfl | ⟨digits, d, rfl⟩ := List.eq_nil_or_concat digits
  · contradiction
  · exact ⟨d, by simp only [List.concat_eq_append, ← List.append_assoc, List.getLast?_concat],
      hd d (by simp)⟩

/-! ## one pass -/

/-- Puts `true` in the place of what `find` finds, from left to right. -/
def substitute (find : (cs : List Char) → Option (Found cs)) (cs : List Char) :
    List Bound × List Char :=
  match cs with
  | [] => ([], [])
  | c :: r =>
    match find (c :: r) with
    | some f =>
      let (bounds, text) := substitute find f.rest
      (f.bound :: bounds, ['t', 'r', 'u', 'e'] ++ text)
    | none =>
      let (bounds, text) := substitute find r
      (bounds, c :: text)
termination_by cs.length
decreasing_by
  · exact f.length_rest_lt
  · simp

section Pass

variable {find : (cs : List Char) → Option (Found cs)} {cs r w z : List Char}

theorem substitute_of_some {f : Found cs} (h : find cs = some f) :
    substitute find cs = (f.bound :: (substitute find f.rest).1,
      ['t', 'r', 'u', 'e'] ++ (substitute find f.rest).2) := by
  cases cs with
  | nil => exact absurd f.length_rest_lt (Nat.not_lt_zero _)
  | cons c r => rw [substitute, h]

theorem substitute_of_none {c : Char} (h : find (c :: r) = none) :
    substitute find (c :: r) = ((substitute find r).1, c :: (substitute find r).2) := by
  rw [substitute, h]

theorem extract_eq_substitute (k : AffixKind) (cs : List Char) :
    extract k cs = substitute (found? k) cs := by
  fun_induction extract k cs with
  | case1 => rw [substitute]
  | case2 c r f hf bounds text hrest ih =>
      rw [hrest] at ih
      rw [substitute_of_some hf, ← ih]
  | case3 c r hf bounds text hrest ih =>
      rw [hrest] at ih
      rw [substitute_of_none hf, ← ih]

/-- What is found starts with a capital O. -/
def Capital (find : (cs : List Char) → Option (Found cs)) : Prop :=
  ∀ cs f, find cs = some f → ∃ w, cs = 'O' :: (w ++ f.rest)

theorem eq_none_of_capital (hfind : Capital find) {c : Char} (hc : c ≠ 'O') :
    find (c :: r) = none := by
  cases h : find (c :: r) with
  | none => rfl
  | some f =>
      obtain ⟨w, hcs⟩ := hfind _ _ h
      exact absurd (List.cons.inj hcs).1 hc

/-- Characters where nothing is found are left as they are. -/
theorem substitute_append (hfind : Capital find) (hw : 'O' ∉ w) :
    substitute find (w ++ r) = ((substitute find r).1, w ++ (substitute find r).2) := by
  induction w with
  | nil => rfl
  | cons c w ih =>
      simp only [List.mem_cons, not_or] at hw
      rw [List.cons_append, substitute_of_none (eq_none_of_capital hfind (Ne.symm hw.1)), ih hw.2]
      rfl

theorem substitute_of_not_mem (hfind : Capital find) (hw : 'O' ∉ w) :
    substitute find w = ([], w) := by
  have h := substitute_append (r := []) hfind hw
  simpa [substitute] using h

/-- What is left of a text without the letter that `true` starts with was there before. -/
theorem exists_of_substitute_append (hw : 't' ∉ w) (h : (substitute find cs).2 = w ++ z) :
    ∃ cs', cs = w ++ cs' ∧ (substitute find cs').2 = z := by
  induction w generalizing cs with
  | nil => exact ⟨cs, rfl, h⟩
  | cons c w ih =>
      simp only [List.mem_cons, not_or] at hw
      cases cs with
      | nil => simp [substitute] at h
      | cons d r =>
          cases hfind : find (d :: r) with
          | some f =>
              rw [substitute_of_some hfind] at h
              exact absurd (List.cons.inj h).1 hw.1
          | none =>
              rw [substitute_of_none hfind] at h
              obtain ⟨rfl, htail⟩ := List.cons.inj h
              obtain ⟨cs', rfl, hz⟩ := ih hw.2 htail
              exact ⟨cs', rfl, hz⟩

theorem head?_substitute (hfind : Capital find) {p : Char → Bool} (ht : p 't' = false)
    (hO : p 'O' = false) : (substitute find cs).2.head?.any p = cs.head?.any p := by
  cases cs with
  | nil => simp [substitute]
  | cons c r =>
      cases h : find (c :: r) with
      | none => rw [substitute_of_none h]; rfl
      | some f =>
          obtain ⟨w, hcs⟩ := hfind _ _ h
          obtain rfl : c = 'O' := (List.cons.inj hcs).1
          rw [substitute_of_some h]
          simp [ht, hO]

theorem substitute_eq_nil_iff : (substitute find cs).2 = [] ↔ cs = [] := by
  cases cs with
  | nil => simp [substitute]
  | cons c r =>
      cases h : find (c :: r) with
      | none => simp [substitute_of_none h]
      | some f => simp [substitute_of_some h]

theorem getLast?_substitute (hfind : Capital find) {p : Char → Bool} (he : p 'e' = false)
    (h : (substitute find cs).2.getLast?.any p = true) : cs.getLast?.any p = true := by
  induction cs using substitute.induct find with
  | case1 => simp [substitute] at h
  | case2 c r f hf bounds text hrest ih =>
      obtain ⟨w, hcs⟩ := hfind _ _ hf
      rw [substitute_of_some hf, List.getLast?_append] at h
      have hne : f.rest ≠ [] := by
        intro hnil
        simp [hnil, substitute, he] at h
      have hne' : (substitute find f.rest).2 ≠ [] := fun hnil => hne (substitute_eq_nil_iff.mp hnil)
      have hlast : (c :: r).getLast? = f.rest.getLast? := by
        rw [congrArg List.getLast? hcs, ← List.cons_append, List.getLast?_append_of_ne_nil _ hne]
      rw [hlast]
      refine ih ?_
      rw [List.getLast?_eq_some_getLast hne'] at h ⊢
      exact h
  | case3 c r hf bounds text hrest ih =>
      rw [substitute_of_none hf] at h
      cases r with
      | nil => simpa [substitute] using h
      | cons d r =>
          have hne : (substitute find (d :: r)).2 ≠ [] :=
            fun hnil => List.cons_ne_nil d r (substitute_eq_nil_iff.mp hnil)
          obtain ⟨e, t, het⟩ := List.exists_cons_of_ne_nil hne
          rw [het] at h ih
          rw [List.getLast?_cons_cons] at h ⊢
          exact ih h

theorem mem_of_mem_substitute (hfind : Capital find) {c : Char} (hc : c ∈ (substitute find cs).2) :
    c ∈ cs ∨ c ∈ ['t', 'r', 'u', 'e'] := by
  induction cs using substitute.induct find with
  | case1 => simp [substitute] at hc
  | case2 d r f hf bounds text hrest ih =>
      rw [substitute_of_some hf, List.mem_append] at hc
      rcases hc with hc | hc
      · exact .inr hc
      · obtain ⟨w, hcs⟩ := hfind _ _ hf
        have hrest : f.rest <:+ d :: r := ⟨'O' :: w, hcs.symm⟩
        exact (ih hc).imp_left fun h => hrest.subset h
  | case3 d r hf bounds text hrest ih =>
      rw [substitute_of_none hf] at hc
      rcases List.mem_cons.mp hc with rfl | hc
      · exact .inl List.mem_cons_self
      · exact (ih hc).imp_left (List.mem_cons_of_mem d)

/-- What a pass leaves starts with a comparison only if one was there before. -/
theorem isSome_found?_of_substitute (hfind : Capital find) {k : AffixKind} (cs : List Char)
    (h : (found? k (substitute find cs).2).isSome = true) : (found? k cs).isSome = true := by
  obtain ⟨f, hf⟩ := Option.isSome_iff_exists.mp h
  obtain ⟨m, htext, hm, hrest⟩ := writes_of_found? hf
  obtain ⟨d, x, rfl, hd, hx⟩ := hm.exists_tail
  have hx' : 't' ∉ d :: x := fun hmem => absurd (hx 't' hmem) (by decide)
  have hcount : ∃ w, 't' ∉ w ∧ countName k = w ++ ['t'] := by
    cases k
    · exact ⟨"OpenPrefixCoun".toList, by decide, rfl⟩
    · exact ⟨"OpenSuffixCoun".toList, by decide, rfl⟩
  obtain ⟨w, hw, hname⟩ := hcount
  -- the name ends with the letter that `true` starts with, but it does not go on like that
  rw [hname, List.append_assoc, List.append_assoc] at htext
  obtain ⟨cs₁, rfl, htext₁⟩ := exists_of_substitute_append hw htext
  obtain ⟨cs₂, rfl, htext₂⟩ : ∃ cs₂, cs₁ = 't' :: cs₂ ∧
      (substitute find cs₂).2 = d :: x ++ f.rest := by
    cases cs₁ with
    | nil => simp [substitute] at htext₁
    | cons c cs₁ =>
        cases hc : find (c :: cs₁) with
        | some g =>
            rw [substitute_of_some hc] at htext₁
            obtain rfl : 'r' = d := (List.cons.inj (List.cons.inj htext₁).2).1
            exact absurd hd (by decide)
        | none =>
            rw [substitute_of_none hc] at htext₁
            obtain ⟨rfl, htail⟩ := List.cons.inj htext₁
            exact ⟨cs₁, rfl, htail⟩
  obtain ⟨cs₃, rfl, htext₃⟩ := exists_of_substitute_append hx' htext₂
  rw [← htext₃, head?_substitute hfind (by decide) (by decide)] at hrest
  obtain ⟨f', hf', -⟩ := found?_of_writes hm hrest
  have htext : w ++ 't' :: (d :: x ++ cs₃) = countName k ++ d :: x ++ cs₃ := by
    rw [hname]
    simp
  rw [htext, hf']
  rfl

end Pass

/-! ## both passes -/

/-- The comparison of either kind at the front of a text. -/
def foundEither? (cs : List Char) : Option (Found cs) := (found? .prefixMod cs).or (found? .suffixMod cs)

theorem capital_found? (k : AffixKind) : Capital (found? k) := by
  intro cs f h
  obtain ⟨m, hcs, hm, -⟩ := writes_of_found? h
  obtain ⟨m', rfl, -⟩ := hm.exists_cons
  exact ⟨m', hcs⟩

/-- What is found is a comparison of one of the kinds. -/
theorem exists_of_foundEither? {cs : List Char} {f : Found cs} (h : foundEither? cs = some f) :
    ∃ k, found? k cs = some f := by
  rcases Option.or_eq_some_iff.mp h with h | ⟨-, h⟩
  · exact ⟨_, h⟩
  · exact ⟨_, h⟩

theorem capital_foundEither? : Capital foundEither? := by
  intro cs f h
  obtain ⟨k, hk⟩ := exists_of_foundEither? h
  exact capital_found? k _ _ hk

theorem foundEither?_of_isBlank {c : Char} (hc : isBlank c = true) (r : List Char) :
    foundEither? (c :: r) = none := by
  refine eq_none_of_capital capital_foundEither? ?_
  rintro rfl
  exact absurd hc (by decide)

/-- The name of a kind has its fifth letter for itself. -/
theorem countName_fifth (k : AffixKind) :
    (countName k).length = 15 ∧ (countName k)[4]? = some (if k = .prefixMod then 'P' else 'S') := by
  cases k <;> decide

/-- A text starts with the name of at most one kind. -/
theorem countName_append_inj {k k' : AffixKind} {a b : List Char}
    (h : countName k ++ a = countName k' ++ b) : k = k' ∧ a = b := by
  obtain ⟨hlength, hfifth⟩ := countName_fifth k
  obtain ⟨hlength', hfifth'⟩ := countName_fifth k'
  obtain ⟨hname, hrest⟩ := List.append_inj h (hlength.trans hlength'.symm)
  rw [hname, hfifth'] at hfifth
  refine ⟨?_, hrest⟩
  cases k <;> cases k' <;> first | rfl | simp at hfifth

/-- A comparison is of one kind. -/
theorem found?_eq_none_of_found? {k : AffixKind} (k' : AffixKind) (hk : k ≠ k') {cs : List Char}
    {f : Found cs} (h : found? k cs = some f) : found? k' cs = none := by
  cases h' : found? k' cs with
  | none => rfl
  | some f' =>
      obtain ⟨m, hcs, hm, -⟩ := writes_of_found? h
      obtain ⟨m', hcs', hm', -⟩ := writes_of_found? h'
      obtain ⟨d, x, rfl, -⟩ := hm.exists_tail
      obtain ⟨d', x', rfl, -⟩ := hm'.exists_tail
      rw [List.append_assoc] at hcs hcs'
      exact absurd (countName_append_inj (hcs.symm.trans hcs')).1 hk

theorem foundEither?_of_found? {k : AffixKind} {cs : List Char} {f : Found cs}
    (h : found? k cs = some f) : foundEither? cs = some f := by
  cases k with
  | prefixMod => rw [foundEither?, h, Option.some_or]
  | suffixMod =>
      rw [foundEither?, found?_eq_none_of_found? .prefixMod (by decide) h, Option.none_or, h]

theorem foundEither?_eq_none {cs : List Char} (h : foundEither? cs = none) (k : AffixKind) :
    found? k cs = none := by
  obtain ⟨hpre, hsuf⟩ := Option.or_eq_none_iff.mp h
  cases k
  · exact hpre
  · exact hsuf

/-- A pass leaves a comparison of the other kind as it is. -/
theorem substitute_of_writes {k k' : AffixKind} {cs m r : List Char} {b : Bound}
    (h : Writes k' m b) (hcs : cs = m ++ r) (hnone : found? k cs = none) :
    substitute (found? k) cs = ((substitute (found? k) r).1, m ++ (substitute (found? k) r).2) := by
  obtain ⟨m', rfl, hm'⟩ := h.exists_cons
  rw [hcs, List.cons_append] at hnone ⊢
  rw [substitute_of_none hnone, substitute_append (capital_found? k) hm']
  rfl

/-- The pass for suffixes over what the pass for prefixes leaves finds the comparisons of the text, and
leaves what a single pass for both kinds leaves. -/
theorem extract_extract (cs : List Char) :
    extract .suffixMod (extract .prefixMod cs).2 =
      ((extract .suffixMod cs).1, (substitute foundEither? cs).2) := by
  simp only [extract_eq_substitute]
  induction cs using substitute.induct foundEither? with
  | case1 => simp [substitute]
  | case2 c r f hf bounds text hrest ih =>
      clear hrest
      have hrest := substitute_of_some hf
      rcases Option.or_eq_some_iff.mp hf with hpre | ⟨hpre, hsuf⟩
      · -- a comparison of prefixes, which the pass for suffixes would have left alone
        have hnone := found?_eq_none_of_found? .suffixMod (by decide) hpre
        obtain ⟨m, hcs, hm, -⟩ := writes_of_found? hpre
        have hfound : (substitute (found? .suffixMod) (c :: r)).1 =
            (substitute (found? .suffixMod) f.rest).1 := by
          rw [substitute_of_writes hm hcs hnone]
        rw [substitute_of_some hpre, substitute_append (capital_found? _) (by decide), ih,
          hfound, hrest]
      · -- a comparison of suffixes, which the pass for prefixes leaves where it is
        obtain ⟨m, hcs, hm, hdigit⟩ := writes_of_found? hsuf
        have hleft : (substitute (found? .prefixMod) (c :: r)).2 =
            m ++ (substitute (found? .prefixMod) f.rest).2 := by
          rw [substitute_of_writes hm hcs hpre]
        have hdigit' : (substitute (found? .prefixMod) f.rest).2.head?.any isDecimal = false := by
          rw [head?_substitute (capital_found? _) (by decide) (by decide)]
          exact hdigit
        obtain ⟨f', hf', hbound, hf'rest⟩ := found?_of_writes hm hdigit'
        rw [hleft, substitute_of_some hf', substitute_of_some hsuf, hrest, hbound, hf'rest, ih]
  | case3 c r hf bounds text hrest ih =>
      have hnone := foundEither?_eq_none hf
      have hsuf : found? .suffixMod (c :: (substitute (found? .prefixMod) r).2) = none := by
        rw [← Option.not_isSome_iff_eq_none]
        intro hsome
        have h := isSome_found?_of_substitute (capital_found? .prefixMod) (c :: r)
          (by rw [substitute_of_none (hnone _)]; exact hsome)
        simp [hnone] at h
      rw [substitute_of_none (hnone .prefixMod), substitute_of_none hsuf, ih,
        substitute_of_none (hnone .suffixMod), substitute_of_none hf]

/-- What both passes leave holds no comparison. -/
theorem substitute_substitute (k : AffixKind) (cs : List Char) :
    extract k (substitute foundEither? cs).2 = ([], (substitute foundEither? cs).2) := by
  rw [extract_eq_substitute]
  induction cs using substitute.induct foundEither? with
  | case1 => simp [substitute]
  | case2 c r f hf bounds text hrest ih =>
      rw [substitute_of_some hf, substitute_append (capital_found? k) (by decide), ih]
  | case3 c r hf bounds text hrest ih =>
      have hnone : found? k (c :: (substitute foundEither? r).2) = none := by
        rw [← Option.not_isSome_iff_eq_none]
        intro hsome
        have h := isSome_found?_of_substitute capital_foundEither? (c :: r)
          (by rw [substitute_of_none hf]; exact hsome)
        simp [foundEither?_eq_none hf k] at h
      rw [substitute_of_none hf, substitute_of_none hnone, ih]

/-- A pass makes no text longer. -/
theorem length_substitute_le (cs : List Char) : (substitute foundEither? cs).2.length ≤ cs.length := by
  induction cs using substitute.induct foundEither? with
  | case1 => simp [substitute]
  | case2 c r f hf bounds text hrest ih =>
      obtain ⟨k, hk⟩ := exists_of_foundEither? hf
      obtain ⟨m, hcs, hm, -⟩ := writes_of_found? hk
      obtain ⟨d, x, rfl, -⟩ := hm.exists_tail
      have hlength := congrArg List.length hcs
      rw [List.length_append, List.length_append, (countName_fifth k).1] at hlength
      rw [substitute_of_some hf, hlength, List.length_append]
      simp only [List.length_cons, List.length_nil]
      omega
  | case3 c r hf bounds text hrest ih =>
      rw [substitute_of_none hf, List.length_cons, List.length_cons]
      exact Nat.succ_le_succ ih

/-- A text made ready, with both passes as one. -/
theorem prepare_eq (text : String) :
    prepare text =
      let joined := joinLines (stripComments text.toList)
      ⟨String.ofList (substitute foundEither? joined).2,
        ⟨leastOf (extract .prefixMod joined).1, leastOf (extract .suffixMod joined).1⟩⟩ := by
  simp only [prepare, extract_extract]

/-- A text whose lines are the same is made ready to the same. -/
theorem prepare_congr {text text' : String}
    (h : contentLines (stripComments text'.toList) = contentLines (stripComments text.toList)) :
    prepare text' = prepare text := by
  rw [prepare_eq, prepare_eq, joinLines, joinLines, h]

end ShopLens.Rule
