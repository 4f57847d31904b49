import ShopLens.Proofs.Filter.Lexemes
import ShopLens.Rule.Lines

/-!
# ShopLens.Proofs.Rule.Lines

The layout of rule texts: what trimming leaves, the pieces of a text, and one line as it is joined from
them.

* `exists_trim` — a text is what trimming leaves, with blanks at both ends, and so it has the tokens of
  what trimming leaves (`lexesFrom_trim`);
* `pieces_intercalate` — the pieces of lines with line feeds between them are the lines;
* `contentLines_append_feed` — two texts with a line feed between them have the lines of both;
* `joinLines_of_single` — a single line is trimmed and nothing else;
* `joinLines_normal` — joining makes a single trimmed line of every text.
-/

namespace ShopLens.Rule

open ShopLens.Text

/-! ## trimming -/

/-- Whether a text neither starts nor ends with a blank. -/
def Trimmed (cs : List Char) : Prop :=
  (∀ c ∈ cs.head?, isBlank c = false) ∧ ∀ c ∈ cs.getLast?, isBlank c = false

theorem head?_dropWhile_isBlank (cs : List Char) :
    ∀ c ∈ (cs.dropWhile isBlank).head?, isBlank c = false := by
  intro c hc
  have h := List.head?_dropWhile_not isBlank cs
  rw [Option.mem_def.mp hc] at h
  simpa using h

/-- Trimming leaves a text that is trimmed as it is. -/
theorem trim_of_trimmed {cs : List Char} (h : Trimmed cs) : trim cs = cs := by
  rw [trim, trimStart_eq_self h.1, trimEnd_eq_self h.2]

/-- What trimming takes away at the end. -/
theorem trim_append (cs : List Char) :
    trim cs ++ ((trimStart cs).reverse.takeWhile isBlank).reverse = trimStart cs := by
  rw [trim, trimEnd, ← List.reverse_append, List.takeWhile_append_dropWhile, List.reverse_reverse]

/-- A text is what trimming leaves, with blanks at both ends. -/
theorem exists_trim (cs : List Char) :
    ∃ before after, cs = before ++ trim cs ++ after ∧ (∀ c ∈ before, isBlank c = true) ∧
      ∀ c ∈ after, isBlank c = true := by
  refine ⟨cs.takeWhile isBlank, ((trimStart cs).reverse.takeWhile isBlank).reverse, ?_, ?_, ?_⟩
  · rw [List.append_assoc, trim_append, trimStart, List.takeWhile_append_dropWhile]
  · exact fun c hc => List.all_eq_true.mp List.all_takeWhile c hc
  · intro c hc
    exact List.all_eq_true.mp List.all_takeWhile c (List.mem_reverse.mp hc)

theorem trimmed_trim (cs : List Char) : Trimmed (trim cs) := by
  constructor
  · intro c hc
    refine head?_dropWhile_isBlank cs c ?_
    show c ∈ (trimStart cs).head?
    rw [← trim_append, List.head?_append, Option.mem_def.mp hc]
    rfl
  · intro c hc
    rw [trim, trimEnd, List.getLast?_reverse] at hc
    exact head?_dropWhile_isBlank _ c hc

theorem mem_of_mem_trim {c : Char} {cs : List Char} (h : c ∈ trim cs) : c ∈ cs := by
  obtain ⟨before, after, hcs, -⟩ := exists_trim cs
  rw [hcs]
  simp [h]

theorem length_trim_le (cs : List Char) : (trim cs).length ≤ cs.length := by
  obtain ⟨before, after, hcs, -⟩ := exists_trim cs
  have hlength := congrArg List.length hcs
  simp only [List.length_append] at hlength
  omega

/-- Two trimmed texts with anything between them are trimmed. -/
theorem Trimmed.append {a b : List Char} (ha : Trimmed a) (hb : Trimmed b) (hane : a ≠ [])
    (hbne : b ≠ []) (w : List Char) : Trimmed (a ++ (w ++ b)) := by
  constructor
  · obtain ⟨c, a, rfl⟩ := List.exists_cons_of_ne_nil hane
    exact ha.1
  · rw [← List.append_assoc, List.getLast?_append, List.getLast?_eq_some_getLast hbne]
    simpa [List.getLast?_eq_some_getLast hbne] using hb.2

/-- What trimming leaves has the tokens of the text. -/
theorem lexesFrom_trim {pos : Nat} {cs : List Char} {ps : List Filter.Placed}
    (h : Filter.LexesFrom pos cs ps) :
    ∃ before after, cs = before ++ (trim cs ++ after) ∧ (∀ c ∈ before, isBlank c = true) ∧
      (∀ c ∈ after, isBlank c = true) ∧
        Filter.LexesFrom (pos + Filter.byteLength before) (trim cs) ps := by
  obtain ⟨before, after, hcs, hbefore, hafter⟩ := exists_trim cs
  rw [hcs] at h
  exact ⟨before, after, by rw [← List.append_assoc]; exact hcs, hbefore, hafter,
    (h.of_append_blanks hafter).of_blanks_append hbefore⟩

/-! ## pieces -/

theorem unifyBreaks_of_not_mem {cs : List Char} (h : '\r' ∉ cs) : unifyBreaks cs = cs := by
  induction cs with
  | nil => rfl
  | cons c r ih =>
      simp only [List.mem_cons, not_or] at h
      rw [unifyBreaks]
      · rw [if_neg (fun hc => h.1 hc.symm), ih h.2]
      · rintro r' rfl
        exact absurd rfl h.1

theorem not_mem_unifyBreaks (cs : List Char) : '\r' ∉ unifyBreaks cs := by
  fun_induction unifyBreaks cs with
  | case1 => simp
  | case2 r ih => simpa using ih
  | case3 c r hc ih =>
      by_cases hreturn : c = '\r'
      · simpa [hreturn] using ih
      · simp [hreturn, Ne.symm hreturn, ih]

theorem pieces_of_not_mem {cs : List Char} (h : '\n' ∉ cs) : pieces cs = [cs] := by
  induction cs with
  | nil => rfl
  | cons c r ih =>
      simp only [List.mem_cons, not_or] at h
      rw [pieces, if_neg (fun hc => h.1 hc.symm), ih h.2]

theorem pieces_ne_nil (cs : List Char) : pieces cs ≠ [] := by
  fun_induction pieces cs <;> simp

/-- The pieces of two texts with a line feed between them. -/
theorem pieces_append_feed (a r : List Char) : pieces (a ++ '\n' :: r) = pieces a ++ pieces r := by
  fun_induction pieces a with
  | case1 => simp [pieces]
  | case2 a ih => simp [pieces, ih]
  | case3 c a hc hnil ih => exact absurd hnil (pieces_ne_nil a)
  | case4 c a hc p ps hps ih =>
      rw [hps] at ih
      simp [pieces, hc, ih]

theorem pieces_append {l : List Char} (h : '\n' ∉ l) (r : List Char) :
    pieces (l ++ '\n' :: r) = l :: pieces r := by
  rw [pieces_append_feed, pieces_of_not_mem h, List.singleton_append]

theorem not_mem_intercalate {c : Char} {sep : List Char} {ls : List (List Char)} (hc : c ∉ sep)
    (h : ∀ l ∈ ls, c ∉ l) : c ∉ sep.intercalate ls := by
  induction ls with
  | nil => simp [List.intercalate]
  | cons l ls ih =>
      have hl : c ∉ l := h l (by simp)
      cases ls with
      | nil => simpa [List.intercalate] using hl
      | cons m ls =>
          have hls := ih fun k hk => h k (by simp [hk])
          rw [List.intercalate_cons_cons, List.append_assoc]
          simp [hl, hc, hls]

/-- The pieces of lines with line feeds between them are the lines. -/
theorem pieces_intercalate {ls : List (List Char)} (hne : ls ≠ []) (h : ∀ l ∈ ls, '\n' ∉ l) :
    pieces (['\n'].intercalate ls) = ls := by
  induction ls with
  | nil => contradiction
  | cons l ls ih =>
      have hl : '\n' ∉ l := h l (by simp)
      cases ls with
      | nil => simpa [List.intercalate] using pieces_of_not_mem hl
      | cons m ls =>
          have hls := ih (by simp) fun k hk => h k (by simp [hk])
          rw [List.intercalate_cons_cons, List.append_assoc, List.singleton_append, pieces_append hl,
            hls]

/-- A text is its pieces with line feeds between them. -/
theorem intercalate_pieces (cs : List Char) : ['\n'].intercalate (pieces cs) = cs := by
  fun_induction pieces cs with
  | case1 => rfl
  | case2 r ih =>
      obtain ⟨p, ps, hps⟩ := List.exists_cons_of_ne_nil (pieces_ne_nil r)
      rw [hps] at ih ⊢
      rw [List.intercalate_cons_cons, List.append_assoc, ih]
      rfl
  | case3 c r hc hnil ih => exact absurd hnil (pieces_ne_nil r)
  | case4 c r hc p ps hps ih =>
      rw [hps] at ih
      cases ps <;> simp_all [List.intercalate_cons_cons]

theorem not_mem_of_mem_pieces {cs p : List Char} (h : p ∈ pieces cs) : '\n' ∉ p := by
  fun_induction pieces cs generalizing p with
  | case1 => simp_all
  | case2 r ih =>
      rcases List.mem_cons.mp h with rfl | h
      · simp
      · exact ih h
  | case3 c r hc hnil ih => exact absurd hnil (pieces_ne_nil r)
  | case4 c r hc q ps hps ih =>
      rw [hps] at ih
      rcases List.mem_cons.mp h with rfl | h
      · simp [Ne.symm hc, ih (List.mem_cons_self)]
      · exact ih (List.mem_cons_of_mem q h)

theorem mem_of_mem_pieces {cs p : List Char} {c : Char} (h : p ∈ pieces cs) (hc : c ∈ p) :
    c ∈ cs := by
  fun_induction pieces cs generalizing p with
  | case1 => simp_all
  | case2 r ih =>
      rcases List.mem_cons.mp h with rfl | h
      · simp at hc
      · exact List.mem_cons_of_mem _ (ih h hc)
  | case3 d r hd hnil ih => exact absurd hnil (pieces_ne_nil r)
  | case4 d r hd q ps hps ih =>
      rw [hps] at ih
      rcases List.mem_cons.mp h with rfl | h
      · rcases List.mem_cons.mp hc with rfl | hc
        · exact List.mem_cons_self
        · exact List.mem_cons_of_mem _ (ih List.mem_cons_self hc)
      · exact List.mem_cons_of_mem _ (ih (List.mem_cons_of_mem q h) hc)

theorem mem_of_mem_unifyBreaks {cs : List Char} {c : Char} (h : c ∈ unifyBreaks cs) :
    c ∈ cs ∨ c = '\n' := by
  fun_induction unifyBreaks cs with
  | case1 => contradiction
  | case2 r ih =>
      rcases List.mem_cons.mp h with rfl | h
      · exact .inr rfl
      · exact (ih h).imp_left fun hr => by simp [hr]
  | case3 d r hd ih =>
      rcases List.mem_cons.mp h with rfl | h
      · by_cases hreturn : d = '\r'
        · exact .inr (if_pos hreturn)
        · exact .inl (by simp [hreturn])
      · exact (ih h).imp_left (List.mem_cons_of_mem d)

/-- Only carriage returns are lost where line breaks are unified. -/
theorem mem_unifyBreaks_of_mem {cs : List Char} {c : Char} (h : c ∈ cs) (hc : c ≠ '\r') :
    c ∈ unifyBreaks cs := by
  fun_induction unifyBreaks cs with
  | case1 => contradiction
  | case2 r ih =>
      have hmem : c = '\n' ∨ c ∈ r := by simpa [hc] using h
      exact List.mem_cons.mpr (hmem.imp_right ih)
  | case3 d r hd ih =>
      rcases List.mem_cons.mp h with rfl | h
      · simp [hc]
      · exact List.mem_cons_of_mem _ (ih h)

/-- Between two texts a line feed stays a line break; if the first one ends with a carriage return, both
are one break. -/
theorem unifyBreaks_append_feed (a r : List Char) :
    unifyBreaks (a ++ '\n' :: r) = unifyBreaks a ++ '\n' :: unifyBreaks r ∨
      ∃ x, unifyBreaks a = x ++ ['\n'] ∧
        unifyBreaks (a ++ '\n' :: r) = x ++ '\n' :: unifyBreaks r := by
  fun_induction unifyBreaks a with
  | case1 => exact .inl (by simp [unifyBreaks])
  | case2 a ih =>
      rw [List.cons_append, List.cons_append, unifyBreaks]
      exact ih.imp (congrArg _) fun ⟨x, hx, hr⟩ => ⟨'\n' :: x, by rw [hx]; rfl, by rw [hr]; rfl⟩
  | case3 c a hc ih =>
      cases a with
      | nil =>
          by_cases hreturn : c = '\r'
          · exact .inr ⟨[], by simp [hreturn, unifyBreaks], by simp [hreturn, unifyBreaks]⟩
          · exact .inl (by simp [hreturn, unifyBreaks])
      | cons d a =>
          have hd : unifyBreaks (c :: (d :: a ++ '\n' :: r)) =
              (if c = '\r' then '\n' else c) :: unifyBreaks (d :: a ++ '\n' :: r) := by
            rw [unifyBreaks]
            rintro r' rfl heq
            obtain rfl := (List.cons.inj heq).1
            exact hc a rfl rfl
          rw [List.cons_append, hd]
          exact ih.imp (congrArg _) fun ⟨x, hx, hr⟩ => ⟨_ :: x, by rw [hx]; rfl, by rw [hr]; rfl⟩

/-- The lines of two texts with a line feed between them. -/
theorem contentLines_append_feed (a r : List Char) :
    contentLines (a ++ '\n' :: r) = contentLines a ++ contentLines r := by
  rcases unifyBreaks_append_feed a r with h | ⟨x, ha, h⟩
  · rw [contentLines, h, pieces_append_feed, List.map_append, List.filter_append]
    rfl
  · have hblank : pieces (x ++ ['\n']) = pieces x ++ [[]] := pieces_append_feed x []
    simp only [contentLines, h, ha, hblank, pieces_append_feed, List.map_append, List.filter_append]
    simp [trim, trimEnd]

/-! ## one line -/

/-- Whether a text is a single trimmed line. -/
structure IsLine (cs : List Char) : Prop where
  trimmed : Trimmed cs
  noReturn : '\r' ∉ cs
  noFeed : '\n' ∉ cs

theorem isLine_of_mem_contentLines {cs l : List Char} (h : l ∈ contentLines cs) :
    IsLine l ∧ l ≠ [] := by
  obtain ⟨hmem, hne⟩ := List.mem_filter.mp h
  obtain ⟨p, hp, rfl⟩ := List.mem_map.mp hmem
  refine ⟨⟨trimmed_trim p, fun hc => ?_, fun hc => ?_⟩, by simpa using hne⟩
  · exact not_mem_unifyBreaks cs (mem_of_mem_pieces hp (mem_of_mem_trim hc))
  · exact not_mem_of_mem_pieces hp (mem_of_mem_trim hc)

/-- Lines are joined to a line. -/
theorem isLine_joinWithSeams {ls : List (List Char)} (h : ∀ l ∈ ls, IsLine l ∧ l ≠ []) :
    IsLine (joinWithSeams ls) ∧ (ls ≠ [] → joinWithSeams ls ≠ []) := by
  fun_induction joinWithSeams ls with
  | case1 => exact ⟨⟨⟨by simp, by simp⟩, by simp, by simp⟩, by simp⟩
  | case2 l => exact ⟨(h l (by simp)).1, fun _ => (h l (by simp)).2⟩
  | case3 l m ls ih =>
      obtain ⟨hl, hlne⟩ := h l (by simp)
      obtain ⟨hrest, hrestne⟩ := ih fun k hk => h k (List.mem_cons_of_mem l hk)
      have hseam (c : Char) (hc : c ∉ [' ', '|']) : c ∉ seam l m := by
        unfold seam
        split <;> simp_all
      refine ⟨⟨?_, ?_, ?_⟩, by simp [hlne]⟩
      · rw [List.append_assoc]
        exact hl.trimmed.append hrest.trimmed hlne (hrestne (by simp)) _
      · simp [hl.noReturn, hrest.noReturn, hseam '\r' (by decide)]
      · simp [hl.noFeed, hrest.noFeed, hseam '\n' (by decide)]

theorem isLine_joinLines (cs : List Char) : IsLine (joinLines cs) :=
  (isLine_joinWithSeams fun _ => isLine_of_mem_contentLines).1

/-- A single line is trimmed and nothing else. -/
theorem joinLines_of_single {cs : List Char} (hr : '\r' ∉ cs) (hn : '\n' ∉ cs) :
    joinLines cs = trim cs := by
  rw [joinLines, contentLines, unifyBreaks_of_not_mem hr, pieces_of_not_mem hn]
  by_cases h : trim cs = []
  · simp [h, joinWithSeams]
  · simp [h, joinWithSeams]

theorem IsLine.joinLines {cs : List Char} (h : IsLine cs) : joinLines cs = cs := by
  rw [joinLines_of_single h.noReturn h.noFeed, trim_of_trimmed h.trimmed]

/-! ## the normal form -/

/-- Trimming leaves nothing of a text just when the text is blank. -/
theorem trim_eq_nil_iff {cs : List Char} : trim cs = [] ↔ ∀ c ∈ cs, isBlank c = true := by
  constructor
  · intro h
    obtain ⟨before, after, hcs, hbefore, hafter⟩ := exists_trim cs
    rw [hcs, h, List.append_nil, List.forall_mem_append]
    exact ⟨hbefore, hafter⟩
  · intro h
    cases htrim : trim cs with
    | nil => rfl
    | cons c r =>
        have hblank : isBlank c = true := h c (mem_of_mem_trim (by simp [htrim]))
        have hstart : isBlank c = false := (trimmed_trim cs).1 c (by simp [htrim])
        simp [hblank] at hstart

/-- A text has no line with content just when each of its lines is blank. -/
theorem contentLines_eq_nil_iff {cs : List Char} :
    contentLines cs = [] ↔ ∀ l ∈ pieces (unifyBreaks cs), ∀ c ∈ l, isBlank c = true := by
  simp [contentLines, trim_eq_nil_iff]

/-- Each line of a text is blank just when the text is: line breaks are blanks too. -/
theorem forall_lines_blank_iff {cs : List Char} :
    (∀ l ∈ pieces (unifyBreaks cs), ∀ c ∈ l, isBlank c = true) ↔ ∀ c ∈ cs, isBlank c = true := by
  constructor
  · intro h c hc
    by_cases hreturn : c = '\r'
    · exact hreturn ▸ by decide
    by_cases hfeed : c = '\n'
    · exact hfeed ▸ by decide
    have hmem : c ∈ ['\n'].intercalate (pieces (unifyBreaks cs)) := by
      rw [intercalate_pieces]
      exact mem_unifyBreaks_of_mem hc hreturn
    cases hblank : isBlank c with
    | true => rfl
    | false =>
        refine absurd hmem (not_mem_intercalate (by simpa using hfeed) fun l hl hcl => ?_)
        simp [h l hl c hcl] at hblank
  · intro h l hl c hc
    rcases mem_of_mem_unifyBreaks (mem_of_mem_pieces hl hc) with hmem | rfl
    · exact h c hmem
    · decide

/-- Lines with content are joined to a text with content. -/
theorem joinLines_eq_nil_iff {cs : List Char} : joinLines cs = [] ↔ contentLines cs = [] := by
  constructor
  · intro h
    cases hlines : contentLines cs with
    | nil => rfl
    | cons l ls =>
        have hne : joinWithSeams (contentLines cs) ≠ [] :=
          (isLine_joinWithSeams fun _ => isLine_of_mem_contentLines).2 (by simp [hlines])
        exact absurd h hne
  · intro h
    rw [joinLines, h]
    rfl

/-- Joining leaves a text as it is just when the text is a single trimmed line. -/
theorem joinLines_eq_self_iff {cs : List Char} : joinLines cs = cs ↔ IsLine cs :=
  ⟨fun h => h ▸ isLine_joinLines cs, IsLine.joinLines⟩

/-- **Normal form.** A text whose lines are joined has no line breaks and no blanks at its ends, is
empty just when each line was blank, which is when the whole text was, and stays as it is when it is joined
again. -/
theorem joinLines_normal (cs : List Char) :
    ('\r' ∉ joinLines cs ∧ '\n' ∉ joinLines cs) ∧
      ((∀ c ∈ (joinLines cs).head?, isBlank c = false) ∧
        ∀ c ∈ (joinLines cs).getLast?, isBlank c = false) ∧
      ((joinLines cs = [] ↔ ∀ l ∈ pieces (unifyBreaks cs), ∀ c ∈ l, isBlank c = true) ∧
        (joinLines cs = [] ↔ ∀ c ∈ cs, isBlank c = true)) ∧
      joinLines (joinLines cs) = joinLines cs := by
  have hline : IsLine (joinLines cs) := isLine_joinLines cs
  have hempty : joinLines cs = [] ↔ ∀ l ∈ pieces (unifyBreaks cs), ∀ c ∈ l, isBlank c = true :=
    joinLines_eq_nil_iff.trans contentLines_eq_nil_iff
  refine ⟨⟨hline.noReturn, hline.noFeed⟩, hline.trimmed, ⟨hempty, ?_⟩, ?_⟩
  · exact hempty.trans forall_lines_blank_iff
  · exact joinLines_eq_self_iff.mpr hline

end ShopLens.Rule
