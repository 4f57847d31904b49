import ShopLens.Proofs.Rule.Idempotence

/-!
# ShopLens.Proofs.Rule.Breaks

Rule texts whose lines end in another way. Comments are taken out before line breaks are unified, so
every region of a text meets all three breaks:

* a carriage return before each line feed changes nothing (`unifyBreaks_stripFrom`);
* with carriage returns alone what is left is what stood before the end of the first line comment
  (`exists_stripFrom_withBreaks`), since only a line feed ends one;
* lines that get lost are missed (`substitute_joinWithSeams_append_ne`).

`prepare_withBreaks` — when a text is made ready to the same.
-/

namespace ShopLens.Rule

open ShopLens.Text

/-! ## line breaks -/

/-- The text with other characters in the place of each line feed. -/
def withBreaks (breaks : List Char) (cs : List Char) : List Char :=
  cs.flatMap fun c => if c = '\n' then breaks else [c]

section Breaks

variable {breaks : List Char} {c : Char} {r : List Char}

@[simp] theorem withBreaks_nil : withBreaks breaks [] = [] := rfl

@[simp] theorem withBreaks_feed : withBreaks breaks ('\n' :: r) = breaks ++ withBreaks breaks r := rfl

@[simp] theorem withBreaks_cons (hc : c ≠ '\n') :
    withBreaks breaks (c :: r) = c :: withBreaks breaks r := by
  simp [withBreaks, hc]

/-- A character that starts no line break was there before. -/
theorem exists_of_withBreaks {d : Char} {cs : List Char} (hd : d ≠ '\r')
    (h : withBreaks ('\r' :: breaks) r = d :: cs) : ∃ r', r = d :: r' := by
  cases r with
  | nil => contradiction
  | cons c r =>
      by_cases hc : c = '\n'
      · subst hc
        exact absurd (List.cons.inj h).1.symm hd
      · rw [withBreaks_cons hc] at h
        obtain rfl := (List.cons.inj h).1
        exact ⟨r, rfl⟩

end Breaks

/-! ## comments -/

/-- Whether what stands in a region stays. -/
def Region.keeps : Region → Bool
  | code => true
  | literal => true
  | _ => false

section Comments

variable {breaks : List Char} {region : Region} {escaped : Bool} {c : Char} {r cs : List Char}

theorem Region.keeps_of_ne (hline : region ≠ .lineComment) (hblock : region ≠ .blockComment) :
    region.keeps = true := by
  cases region with
  | code => rfl
  | literal => rfl
  | lineComment => contradiction
  | blockComment => contradiction

/-- A line break outside of comments stays. -/
theorem stripFrom_break (hregion : region.keeps = true) (hc : c = '\r' ∨ c = '\n') :
    stripFrom region escaped (c :: r) = c :: stripFrom region false r := by
  cases region with
  | code => rcases hc with rfl | rfl <;> rfl
  | literal => rcases hc with rfl | rfl <;> rfl
  | lineComment => contradiction
  | blockComment => contradiction

/-- Other line breaks start no comment. -/
theorem stripFrom_withBreaks (hregion : region.keeps = true)
    (hslashes : ∀ r', region = .code → c = '/' → r = '/' :: r' → False)
    (hstar : ∀ r', region = .code → c = '/' → r = '*' :: r' → False) :
    stripFrom region escaped (c :: withBreaks ('\r' :: breaks) r) =
      c :: stripFrom (region.after escaped c) (c == '\\') (withBreaks ('\r' :: breaks) r) := by
  rw [stripFrom]
  · rintro rfl; contradiction
  · rintro r' rfl; contradiction
  · rintro rfl; contradiction
  · intro cs hcode hc heq
    obtain ⟨r', hr⟩ := exists_of_withBreaks (by decide) heq
    exact hslashes r' hcode hc hr
  · intro cs hcode hc heq
    obtain ⟨r', hr⟩ := exists_of_withBreaks (by decide) heq
    exact hstar r' hcode hc hr

/-- Other line breaks end no block comment. -/
theorem stripFrom_block_withBreaks (h : ∀ r', c = '*' → r = '/' :: r' → False) :
    stripFrom .blockComment escaped (c :: withBreaks ('\r' :: breaks) r) =
      stripFrom .blockComment false (withBreaks ('\r' :: breaks) r) := by
  rw [stripFrom]
  intro cs hc heq
  obtain ⟨r', hr⟩ := exists_of_withBreaks (by decide) heq
  exact h r' hc hr

/-- A carriage return before each line feed is gone once the breaks of what is left are unified. -/
theorem unifyBreaks_stripFrom (h : '\r' ∉ cs) :
    unifyBreaks (stripFrom region escaped (withBreaks ['\r', '\n'] cs)) =
      stripFrom region escaped cs := by
  fun_induction stripFrom region escaped cs with
  | case1 => simp [stripFrom, unifyBreaks]
  | case2 escaped r ih =>
      have hr : '\r' ∉ r := fun hmem => h (List.mem_cons_of_mem _ hmem)
      simp [stripFrom, unifyBreaks, ih hr]
  | case3 escaped c r hc ih =>
      have hr : '\r' ∉ r := fun hmem => h (List.mem_cons_of_mem _ hmem)
      simp [hc, stripFrom, ih hr]
  | case4 escaped r ih =>
      have hr : '\r' ∉ r := fun hmem => h (by simp [hmem])
      simp [stripFrom, ih hr]
  | case5 escaped c r hc ih =>
      have hr : '\r' ∉ r := fun hmem => h (by simp [hmem])
      by_cases hfeed : c = '\n'
      · simp [hfeed, stripFrom, ih hr]
      · rw [withBreaks_cons hfeed, stripFrom_block_withBreaks hc, ih hr]
  | case6 escaped r ih =>
      have hr : '\r' ∉ r := fun hmem => h (by simp [hmem])
      simp [stripFrom, ih hr]
  | case7 escaped r ih =>
      have hr : '\r' ∉ r := fun hmem => h (by simp [hmem])
      simp [stripFrom, ih hr]
  | case8 region escaped c r hline hend hblock hslashes hstar ih =>
      obtain ⟨hc, hr⟩ : '\r' ≠ c ∧ '\r' ∉ r := by simpa using h
      have hregion : region.keeps = true := Region.keeps_of_ne hline hblock
      by_cases hfeed : c = '\n'
      · subst hfeed
        have hafter : region.after escaped '\n' = region := by simp [Region.after]
        rw [hafter] at ih ⊢
        rw [withBreaks_feed, List.cons_append, stripFrom_break hregion (.inl rfl), List.cons_append,
          stripFrom_break hregion (.inr rfl), List.nil_append, unifyBreaks]
        exact congrArg _ (ih hr)
      · rw [withBreaks_cons hfeed, stripFrom_withBreaks hregion hslashes hstar, unifyBreaks,
          if_neg hc.symm, ih hr]
        rintro r' rfl
        contradiction

/-- What stands behind the first line comment of the rest of a text that goes on in `region`, unless the
text ends with it. -/
def behindComment? : (region : Region) → (escaped : Bool) → List Char → Option (List Char)
  | _, _, [] => none
  | .lineComment, _, c :: r => if c = '\n' then some r else behindComment? .lineComment false r
  | .blockComment, _, '*' :: '/' :: r => behindComment? .code false r
  | .blockComment, _, _ :: r => behindComment? .blockComment false r
  | .code, _, '/' :: '/' :: r => behindComment? .lineComment false r
  | .code, _, '/' :: '*' :: r => behindComment? .blockComment false r
  | region, escaped, c :: r => behindComment? (region.after escaped c) (c == '\\') r

/-- A line comment without a line feed goes on to the end. -/
theorem stripFrom_lineComment (h : '\n' ∉ cs) : stripFrom .lineComment escaped cs = [] := by
  induction cs generalizing escaped with
  | nil => simp [stripFrom]
  | cons c r ih =>
      obtain ⟨hc, hr⟩ : '\n' ≠ c ∧ '\n' ∉ r := by simpa using h
      rw [stripFrom, if_neg hc.symm, ih hr]

theorem not_mem_withBreaks (h : '\n' ∉ breaks) (cs : List Char) : '\n' ∉ withBreaks breaks cs := by
  simp only [withBreaks, List.mem_flatMap, not_exists, not_and]
  intro c hc
  split
  · exact h
  · next hfeed => simpa using Ne.symm hfeed

/-- With carriage returns alone, only what stands before the end of the first line comment is left. -/
theorem exists_stripFrom_withBreaks (region : Region) (escaped : Bool) (cs : List Char) :
    ∃ a, stripFrom region escaped (withBreaks ['\r'] cs) = withBreaks ['\r'] a ∧
      stripFrom region escaped cs = a ++ (behindComment? region escaped cs).elim []
        fun r => '\n' :: stripFrom .code false r := by
  fun_induction stripFrom region escaped cs with
  | case1 => exact ⟨[], by simp [stripFrom, behindComment?]⟩
  | case2 escaped r ih =>
      refine ⟨[], ?_, ?_⟩
      · rw [withBreaks_nil]
        exact stripFrom_lineComment (not_mem_withBreaks (by decide) _)
      · simp [behindComment?]
  | case3 escaped c r hc ih =>
      obtain ⟨a, hreturns, hfeeds⟩ := ih
      exact ⟨a, by simp [hc, stripFrom, hreturns], by simp [hc, behindComment?, hfeeds]⟩
  | case4 escaped r ih =>
      obtain ⟨a, hreturns, hfeeds⟩ := ih
      exact ⟨a, by simp [stripFrom, hreturns], by simp [behindComment?, hfeeds]⟩
  | case5 escaped c r hc ih =>
      obtain ⟨a, hreturns, hfeeds⟩ := ih
      refine ⟨a, ?_, ?_⟩
      · by_cases hfeed : c = '\n'
        · simp [hfeed, stripFrom, hreturns]
        · rw [withBreaks_cons hfeed, stripFrom_block_withBreaks hc, hreturns]
      · rw [hfeeds, behindComment?]
        exact hc
  | case6 escaped r ih =>
      obtain ⟨a, hreturns, hfeeds⟩ := ih
      exact ⟨a, by simp [stripFrom, hreturns], by simp [behindComment?, hfeeds]⟩
  | case7 escaped r ih =>
      obtain ⟨a, hreturns, hfeeds⟩ := ih
      exact ⟨a, by simp [stripFrom, hreturns], by simp [behindComment?, hfeeds]⟩
  | case8 region escaped c r hline hend hblock hslashes hstar ih =>
      obtain ⟨a, hreturns, hfeeds⟩ := ih
      have hregion : region.keeps = true := Region.keeps_of_ne hline hblock
      refine ⟨c :: a, ?_, ?_⟩
      · by_cases hfeed : c = '\n'
        · subst hfeed
          have hafter : region.after escaped '\n' = region := by simp [Region.after]
          rw [hafter] at hreturns
          rw [withBreaks_feed, withBreaks_feed, List.cons_append, stripFrom_break hregion (.inl rfl)]
          exact congrArg _ hreturns
        · rw [withBreaks_cons hfeed, withBreaks_cons hfeed, stripFrom_withBreaks hregion hslashes hstar,
            hreturns]
      · rw [hfeeds, behindComment?]
        · rfl
        all_goals assumption

end Comments

/-! ## lines -/

section Lines

variable {cs : List Char}

theorem unifyBreaks_withBreaks (h : '\r' ∉ cs) : unifyBreaks (withBreaks ['\r'] cs) = cs := by
  induction cs with
  | nil => rfl
  | cons c r ih =>
      obtain ⟨hc, hr⟩ : '\r' ≠ c ∧ '\r' ∉ r := by simpa using h
      by_cases hfeed : c = '\n'
      · subst hfeed
        rw [withBreaks_feed, List.singleton_append, unifyBreaks, ih hr]
        · rfl
        · intro r' _ heq
          have hmem : '\n' ∈ withBreaks ['\r'] r := heq ▸ List.mem_cons_self
          exact not_mem_withBreaks (by decide) r hmem
      · rw [withBreaks_cons hfeed, unifyBreaks, ih hr, if_neg hc.symm]
        rintro r' rfl
        contradiction

/-- More lines stand behind a blank. -/
theorem exists_joinWithSeams_append {ls ms : List (List Char)} (hls : ls ≠ []) (hms : ms ≠ []) :
    ∃ z, joinWithSeams (ls ++ ms) = joinWithSeams ls ++ ' ' :: z := by
  induction ls with
  | nil => contradiction
  | cons l ls ih =>
      have hseam (m : List Char) : ∃ z, seam l m = ' ' :: z := by
        unfold seam
        split <;> exact ⟨_, rfl⟩
      cases ls with
      | nil =>
          obtain ⟨m, ms, rfl⟩ := List.exists_cons_of_ne_nil hms
          obtain ⟨z, hz⟩ := hseam m
          refine ⟨z ++ joinWithSeams (m :: ms), ?_⟩
          calc joinWithSeams (l :: m :: ms) = l ++ seam l m ++ joinWithSeams (m :: ms) := rfl
            _ = l ++ ' ' :: (z ++ joinWithSeams (m :: ms)) := by
                rw [hz, List.append_assoc, List.cons_append]
      | cons m ls =>
          obtain ⟨z, hz⟩ := ih (by simp)
          refine ⟨z, ?_⟩
          rw [List.cons_append, List.cons_append, joinWithSeams, ← List.cons_append, hz, joinWithSeams]
          simp only [List.append_assoc]

/-- What is found is found too where a blank and more follow. -/
theorem exists_foundEither?_append {f : Found cs} (h : foundEither? cs = some f) (z : List Char) :
    ∃ g, foundEither? (cs ++ ' ' :: z) = some g ∧ g.rest = f.rest ++ ' ' :: z := by
  obtain ⟨k, hk⟩ := exists_of_foundEither? h
  obtain ⟨m, hcs, hm, hdigit⟩ := writes_of_found? hk
  have hdigit' : (f.rest ++ ' ' :: z).head?.any isDecimal = false := by
    cases hrest : f.rest with
    | nil => exact head?_any_isDecimal_of_blank rfl
    | cons d r => simpa [hrest] using hdigit
  obtain ⟨g, hg, -, hgrest⟩ := found?_of_writes hm hdigit'
  rw [congrArg (· ++ ' ' :: z) hcs, List.append_assoc]
  exact ⟨g, foundEither?_of_found? hg, hgrest⟩

/-- What stands behind a blank is not lost with the comparisons. -/
theorem substitute_append_ne (cs z : List Char) :
    (substitute foundEither? (cs ++ ' ' :: z)).2 ≠ (substitute foundEither? cs).2 := by
  induction cs using substitute.induct foundEither? with
  | case1 =>
      rw [substitute_eq_nil_iff.mpr rfl, Ne, substitute_eq_nil_iff]
      simp
  | case2 c r f hf bounds text hrest ih =>
      obtain ⟨g, hg, hgrest⟩ := exists_foundEither?_append hf z
      rw [substitute_of_some hg, substitute_of_some hf, hgrest]
      simpa using ih
  | case3 c r hf bounds text hrest ih =>
      rw [substitute_of_none hf, List.cons_append]
      cases hg : foundEither? (c :: (r ++ ' ' :: z)) with
      | some g =>
          obtain ⟨w, hw⟩ := capital_foundEither? _ _ hg
          obtain rfl := (List.cons.inj hw).1
          rw [substitute_of_some hg]
          simp
      | none =>
          rw [substitute_of_none hg]
          simpa using ih

/-- Lines with more lines behind them are not made ready to the same. -/
theorem substitute_joinWithSeams_append_ne {ls ms : List (List Char)}
    (hms : ∀ m ∈ ms, IsLine m ∧ m ≠ []) (hne : ms ≠ []) :
    (substitute foundEither? (joinWithSeams (ls ++ ms))).2 ≠
      (substitute foundEither? (joinWithSeams ls)).2 := by
  by_cases hls : ls = []
  · subst hls
    have hjoined : joinWithSeams ms ≠ [] := (isLine_joinWithSeams hms).2 hne
    have hnil : (substitute foundEither? (joinWithSeams [])).2 = [] := substitute_eq_nil_iff.mpr rfl
    rw [List.nil_append, hnil, Ne, substitute_eq_nil_iff]
    exact hjoined
  · obtain ⟨z, hz⟩ := exists_joinWithSeams_append hls hne
    rw [hz]
    exact substitute_append_ne _ z

end Lines

/-! ## making a text ready -/

/-- Joined lines that compare no open affixes are the expression. -/
theorem expression_prepare {text : String} {e : List Char}
    (hjoin : joinLines (stripComments text.toList) = e) (he : 'O' ∉ e) :
    (prepare text).expression = String.ofList e := by
  rw [prepare_eq, hjoin]
  show String.ofList (substitute foundEither? e).2 = String.ofList e
  rw [substitute_of_not_mem capital_foundEither? he]

/-- With a carriage return before each line feed the lines are the same. -/
theorem contentLines_withBreaks {cs : List Char} (h : '\r' ∉ cs) :
    contentLines (stripComments (withBreaks ['\r', '\n'] cs)) = contentLines (stripComments cs) := by
  have hstripped : '\r' ∉ stripComments cs := fun hmem => h ((stripComments_sublist cs).subset hmem)
  rw [contentLines, stripComments, unifyBreaks_stripFrom h, contentLines,
    unifyBreaks_of_not_mem hstripped]
  rfl

/-- With carriage returns alone the lines behind the first line comment are lost. -/
theorem contentLines_eq_append {cs : List Char} (h : '\r' ∉ cs) :
    contentLines (stripComments cs) = contentLines (stripComments (withBreaks ['\r'] cs)) ++
      (behindComment? .code false cs).elim [] fun r => contentLines (stripComments r) := by
  obtain ⟨a, hreturns, hfeeds⟩ := exists_stripFrom_withBreaks .code false cs
  have hstripped : '\r' ∉ stripFrom .code false cs := fun hmem =>
    h ((stripComments_sublist cs).subset hmem)
  have ha : '\r' ∉ a := fun hmem => hstripped (hfeeds ▸ List.mem_append_left _ hmem)
  have hlines : contentLines (stripComments (withBreaks ['\r'] cs)) = contentLines a := by
    rw [stripComments, hreturns, contentLines, unifyBreaks_withBreaks ha, contentLines,
      unifyBreaks_of_not_mem ha]
  rw [hlines, stripComments, hfeeds]
  cases hbehind : behindComment? .code false cs with
  | none => simp
  | some r => exact contentLines_append_feed a (stripComments r)

/-- **Line breaks.** A text is made ready to the same whether its lines end with a line feed or with a
carriage return and a line feed. With a carriage return alone a line comment goes on to the end of the text,
so it is made ready to the same just when no line has anything left behind the first line comment. -/
theorem prepare_withBreaks (text : String) (h : '\r' ∉ text.toList) :
    prepare (String.ofList (withBreaks ['\r', '\n'] text.toList)) = prepare text ∧
      (prepare (String.ofList (withBreaks ['\r'] text.toList)) = prepare text ↔
        ∀ r, behindComment? .code false text.toList = some r →
          contentLines (stripComments r) = []) := by
  constructor
  · refine prepare_congr ?_
    rw [String.toList_ofList, contentLines_withBreaks h]
  have hlines := contentLines_eq_append h
  cases hbehind : behindComment? .code false text.toList with
  | none =>
      refine iff_of_true (prepare_congr ?_) nofun
      rw [String.toList_ofList, hlines, hbehind]
      exact (List.append_nil _).symm
  | some r =>
      replace hlines : contentLines (stripComments text.toList) =
          contentLines (stripComments (withBreaks ['\r'] text.toList)) ++
            contentLines (stripComments r) := by rw [hlines, hbehind]; rfl
      constructor
      · rintro heq r' hr'
        obtain rfl := Option.some.inj hr'
        by_contra hne
        have hexpression := congrArg Prepared.expression heq
        simp only [prepare_eq, joinLines, String.toList_ofList, String.ofList_inj] at hexpression
        rw [hlines] at hexpression
        exact substitute_joinWithSeams_append_ne (fun _ => isLine_of_mem_contentLines) hne
          hexpression.symm
      · intro hblank
        refine prepare_congr ?_
        rw [String.toList_ofList, hlines, hblank r rfl, List.append_nil]

/-- A comment in the first line, and nothing but a comment behind it. -/
theorem prepare_withBreaks_of_notes :
    let text := "Rarity == \"Rare\" // all of them\n/* and\nno more */"
    '\r' ∉ text.toList ∧
      prepare (String.ofList (withBreaks ['\r', '\n'] text.toList)) = prepare text ∧
      prepare (String.ofList (withBreaks ['\r'] text.toList)) = prepare text := by
  intro text
  have hreturn : '\r' ∉ text.toList := by decide
  obtain ⟨hboth, hreturns⟩ := prepare_withBreaks text hreturn
  refine ⟨hreturn, hboth, hreturns.mpr fun r hr => ?_⟩
  obtain rfl : r = "/* and\nno more */".toList := by
    have hbehind : behindComment? .code false text.toList = some "/* and\nno more */".toList := by
      decide
    rw [hbehind] at hr
    exact (Option.some.inj hr).symm
  decide

/-- A line behind a comment that a carriage return should end is lost. -/
theorem prepare_lone_return :
    let text := "foo // bar\nbaz"
    '\r' ∉ text.toList ∧ (prepare text).expression = "foo || baz" ∧
      (prepare (String.ofList (withBreaks ['\r'] text.toList))).expression = "foo" :=
  ⟨by decide, expression_prepare (by decide) (by decide), expression_prepare (by decide) (by decide)⟩

end ShopLens.Rule
