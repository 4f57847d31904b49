import ShopLens.Proofs.Rule.Idempotence

/-!
# ShopLens.Proofs.Rule.IdleLines

Lines of a rule text that say nothing: blank ones, and those that hold only a comment. `regionBehind` tells
where a text goes on behind what was read.

* `exists_stripFrom_append_feed` — behind a line feed that stands in code, comments are removed as from the
  start of a text;
* `IsIdle.exists_stripComments` — an idle line leaves blanks, whatever its comment holds;
* `prepare_idleLine` — a text is made ready to the same without an idle line.
-/

namespace ShopLens.Rule

open ShopLens.Text

/-! ## where a text goes on -/

/-- The region in which the text goes on behind the rest of a text that goes on in `region`; `escaped` says
whether a backslash stands before the rest. -/
def regionBehind : (region : Region) → (escaped : Bool) → List Char → Region
  | region, _, [] => region
  | .lineComment, _, c :: r =>
    if c = '\n' then regionBehind .code false r else regionBehind .lineComment false r
  | .blockComment, _, '*' :: '/' :: r => regionBehind .code false r
  | .blockComment, _, _ :: r => regionBehind .blockComment false r
  | .code, _, '/' :: '/' :: r => regionBehind .lineComment false r
  | .code, _, '/' :: '*' :: r => regionBehind .blockComment false r
  | region, escaped, c :: r => regionBehind (region.after escaped c) (c == '\\') r

/-- Of two characters that belong together the second one is no line feed. -/
theorem exists_of_append_feed {a s r' : List Char} {d : Char} (hd : d ≠ '\n')
    (h : a ++ '\n' :: s = d :: r') : ∃ a', a = d :: a' := by
  cases a with
  | nil => exact absurd (List.cons.inj h).1.symm hd
  | cons e a => exact ⟨a, by rw [(List.cons.inj h).1]⟩

/-- Behind a line feed that stands in code, comments are removed as from the start of a text. -/
theorem exists_stripFrom_append_feed {region : Region} {escaped : Bool} {a : List Char}
    (h : regionBehind region escaped (a ++ ['\n']) = .code) :
    ∃ x, ∀ r, stripFrom region escaped (a ++ '\n' :: r) = x ++ '\n' :: stripComments r := by
  fun_induction stripFrom region escaped a with
  | case1 region escaped =>
      refine ⟨[], fun r => ?_⟩
      cases region with
      | code => simp [stripFrom, stripComments, Region.after]
      | literal => simp [regionBehind, Region.after] at h
      | lineComment => simp [stripFrom, stripComments]
      | blockComment => simp [regionBehind] at h
  | case2 escaped a ih =>
      obtain ⟨x, hx⟩ := ih (by simpa [regionBehind] using h)
      exact ⟨'\n' :: x, fun r => by simp [stripFrom, hx]⟩
  | case3 escaped c a hc ih =>
      obtain ⟨x, hx⟩ := ih (by simpa [regionBehind, hc] using h)
      exact ⟨x, fun r => by simp [stripFrom, hc, hx]⟩
  | case4 escaped a ih =>
      obtain ⟨x, hx⟩ := ih (by simpa [regionBehind] using h)
      exact ⟨x, fun r => by simp [stripFrom, hx]⟩
  | case5 escaped c a hc ih =>
      have hstar (s r' : List Char) (hstar : c = '*') (heq : a ++ '\n' :: s = '/' :: r') : False := by
        obtain ⟨a', ha⟩ := exists_of_append_feed (by decide) heq
        exact hc a' hstar ha
      rw [List.cons_append, regionBehind] at h
      · obtain ⟨x, hx⟩ := ih h
        refine ⟨x, fun r => ?_⟩
        rw [List.cons_append, stripFrom, hx]
        exact hstar r
      · exact hstar []
  | case6 escaped a ih =>
      obtain ⟨x, hx⟩ := ih (by simpa [regionBehind] using h)
      exact ⟨x, fun r => by simp [stripFrom, hx]⟩
  | case7 escaped a ih =>
      obtain ⟨x, hx⟩ := ih (by simpa [regionBehind] using h)
      exact ⟨x, fun r => by simp [stripFrom, hx]⟩
  | case8 region escaped c a hline hend hblock hslashes hstar ih =>
      have hpair {d : Char} (hd : d ≠ '\n')
          (hnot : ∀ a', region = .code → c = '/' → a = d :: a' → False) (s r' : List Char)
          (hcode : region = .code) (hc : c = '/') (heq : a ++ '\n' :: s = d :: r') : False := by
        obtain ⟨a', ha⟩ := exists_of_append_feed hd heq
        exact hnot a' hcode hc ha
      rw [List.cons_append, regionBehind] at h
      · obtain ⟨x, hx⟩ := ih h
        refine ⟨c :: x, fun r => ?_⟩
        rw [List.cons_append, stripFrom, hx, List.cons_append]
        · exact hline
        · rintro r' rfl; contradiction
        · exact hblock
        · exact hpair (by decide) hslashes r
        · exact hpair (by decide) hstar r
      · exact hline
      · rintro r' rfl; contradiction
      · exact hblock
      · exact hpair (by decide) hslashes []
      · exact hpair (by decide) hstar []

/-! ## idle lines -/

/-- Whether a text is white space on one line. -/
def IsGap (w : List Char) : Prop := ∀ c ∈ w, isBlank c = true ∧ c ≠ '\n'

/-- The lines that say nothing: white space, alone or around a comment. What stands behind `//` belongs to
the comment; a block comment may go over several lines. -/
inductive IsIdle : List Char → Prop where
  | blank {w : List Char} (hw : IsGap w) : IsIdle w
  | lineComment {w t : List Char} (hw : IsGap w) (ht : '\n' ∉ t) : IsIdle (w ++ '/' :: '/' :: t)
  | blockComment {w body v : List Char} (hw : IsGap w) (hbody : ¬['*', '/'] <:+: body) (hv : IsGap v) :
      IsIdle (w ++ '/' :: '*' :: (body ++ '*' :: '/' :: v))

section Removal

variable {w t body r : List Char}

/-- White space in code stays. -/
theorem stripComments_gap_append (hw : IsGap w) : stripComments (w ++ r) = w ++ stripComments r := by
  induction w with
  | nil => rfl
  | cons c w ih =>
      obtain ⟨hc, hw⟩ := List.forall_mem_cons.mp hw
      have hinert := isInert_of_isBlank hc.1
      have hne (d : Char) (hd : isInert d = false) : c ≠ d := by
        rintro rfl
        rw [hd] at hinert
        contradiction
      rw [List.cons_append, stripComments, stripFrom]
      · rw [Region.after, if_neg fun h => hne '"' (by decide) h.1,
          beq_false_of_ne (hne '\\' (by decide))]
        exact congrArg (c :: ·) (ih hw)
      · intro hcode
        contradiction
      · intro r' hcode
        contradiction
      · intro hcode
        contradiction
      · exact fun r' _ hslash => absurd hslash (hne '/' (by decide))
      · exact fun r' _ hslash => absurd hslash (hne '/' (by decide))

/-- A line comment ends at the line feed, whatever it holds. -/
theorem stripFrom_lineComment_append (ht : '\n' ∉ t) :
    stripFrom .lineComment false (t ++ '\n' :: r) = '\n' :: stripComments r := by
  induction t with
  | nil => simp [stripFrom, stripComments]
  | cons c t ih =>
      obtain ⟨hc, ht⟩ : '\n' ≠ c ∧ '\n' ∉ t := by simpa using ht
      rw [List.cons_append, stripFrom, if_neg hc.symm, ih ht]

/-- A block comment ends at the first `*/`, whatever it holds before. -/
theorem stripFrom_blockComment_append (hbody : ¬['*', '/'] <:+: body) :
    stripFrom .blockComment false (body ++ '*' :: '/' :: r) = stripComments r := by
  induction body with
  | nil => simp [stripFrom, stripComments]
  | cons c body ih =>
      rw [List.infix_cons_iff, not_or] at hbody
      rw [List.cons_append, stripFrom, ih hbody.2]
      rintro r' rfl heq
      -- the slash would be the next character of the body, or else the star behind it
      cases body with
      | nil => exact absurd (List.cons.inj heq).1 (by decide)
      | cons d body =>
          obtain rfl := (List.cons.inj heq).1
          exact hbody.1 ⟨body, rfl⟩

end Removal

/-- Without its comment an idle line is white space. -/
theorem IsIdle.exists_stripComments {c : List Char} (h : IsIdle c) (r : List Char) :
    ∃ w, IsGap w ∧ stripComments (c ++ '\n' :: r) = w ++ '\n' :: stripComments r := by
  have hfeed : stripComments ('\n' :: r) = '\n' :: stripComments r := by
    simp [stripComments, stripFrom, Region.after]
  cases h with
  | blank hw => exact ⟨c, hw, by rw [stripComments_gap_append hw, hfeed]⟩
  | @lineComment w t hw ht =>
      refine ⟨w, hw, ?_⟩
      rw [List.append_assoc, stripComments_gap_append hw]
      exact congrArg (w ++ ·) (stripFrom_lineComment_append ht)
  | @blockComment w body v hw hbody hv =>
      refine ⟨w ++ v, fun c hc => (List.mem_append.mp hc).elim (hw c) (hv c), ?_⟩
      have hcomment : stripComments ('/' :: '*' :: (body ++ '*' :: '/' :: v) ++ '\n' :: r) =
          stripComments (v ++ '\n' :: r) := by
        simpa [stripComments, stripFrom] using stripFrom_blockComment_append (r := v ++ '\n' :: r) hbody
      rw [List.append_assoc, stripComments_gap_append hw, hcomment, stripComments_gap_append hv, hfeed,
        List.append_assoc]

/-- White space has no lines. -/
theorem contentLines_of_isGap {w : List Char} (hw : IsGap w) : contentLines w = [] := by
  rw [List.eq_nil_iff_forall_not_mem]
  intro l hl
  obtain ⟨hline, hne⟩ := isLine_of_mem_contentLines hl
  obtain ⟨c, l, rfl⟩ := List.exists_cons_of_ne_nil hne
  obtain ⟨hmem, -⟩ := List.mem_filter.mp hl
  obtain ⟨p, hp, htrim⟩ := List.mem_map.mp hmem
  have hc : c ∈ unifyBreaks w := mem_of_mem_pieces hp (mem_of_mem_trim (by simp [htrim]))
  have hblank : isBlank c = true := by
    rcases mem_of_mem_unifyBreaks hc with hc | rfl
    · exact (hw c hc).1
    · decide
  rw [hline.trimmed.1 c rfl] at hblank
  contradiction

/-- **Idle lines.** Where a line feed stands in code, an idle line behind it makes no difference. -/
theorem prepare_idleLine {a c b : String}
    (ha : regionBehind .code false (a.toList ++ ['\n']) = .code) (hc : IsIdle c.toList) :
    prepare (a ++ "\n" ++ c ++ "\n" ++ b) = prepare (a ++ "\n" ++ b) := by
  obtain ⟨x, hx⟩ := exists_stripFrom_append_feed ha
  obtain ⟨w, hw, hidle⟩ := hc.exists_stripComments b.toList
  have hfeed : "\n".toList = ['\n'] := rfl
  have hwith : stripComments (a ++ "\n" ++ c ++ "\n" ++ b).toList =
      x ++ '\n' :: (w ++ '\n' :: stripComments b.toList) := by
    rw [← hidle, ← hx]
    simp [stripComments, hfeed]
  have hwithout : stripComments (a ++ "\n" ++ b).toList = x ++ '\n' :: stripComments b.toList := by
    rw [← hx]
    simp [stripComments, hfeed]
  refine prepare_congr ?_
  rw [hwith, hwithout, contentLines_append_feed, contentLines_append_feed, contentLines_append_feed,
    contentLines_of_isGap hw, List.nil_append]

/-- A comment of two lines with quotes, stars and slashes, behind a line with a literal and a comment. -/
theorem prepare_without_note :
    let a := "Name == \"//\" // the \"good ones"
    let c := "\t/* \"or // these **\n/ */\r "
    let b := "\"x\" == Name"
    regionBehind .code false (a.toList ++ ['\n']) = .code ∧ IsIdle c.toList ∧
      prepare (a ++ "\n" ++ c ++ "\n" ++ b) = prepare (a ++ "\n" ++ b) := by
  intro a c b
  have ha : regionBehind .code false (a.toList ++ ['\n']) = .code := by decide
  have hc : IsIdle c.toList := by
    have hparts : c.toList =
        ['\t'] ++ '/' :: '*' :: (" \"or // these **\n/ ".toList ++ '*' :: '/' :: ['\r', ' ']) := by
      decide
    have htab : IsGap ['\t'] := List.all_iff_forall_prop.mp (by decide)
    have hend : IsGap ['\r', ' '] := List.all_iff_forall_prop.mp (by decide)
    have hbody : ¬['*', '/'] <:+: " \"or // these **\n/ ".toList :=
      fun h => absurd (occursIn_iff.mpr h) (by decide)
    rw [hparts]
    exact .blockComment htab hbody hend
  exact ⟨ha, hc, prepare_idleLine ha hc⟩

end ShopLens.Rule
