import ShopLens.Proofs.Rule.Comments
import ShopLens.Proofs.Rule.Comparisons
import ShopLens.Proofs.Rule.Lines

/-!
# ShopLens.Proofs.Rule.Idempotence

Making a rule text ready a second time. Lines stay joined and comparisons stay taken out; what can
change is which quotes start or end a literal, and with it what is a comment.

* `ends_joinLines`, `run_substitute` — whether a scan for comments gets through a text does not depend
  on its lines and comparisons, which hold none of the characters that a scan looks for;
* `prepare_prepare` — a text made ready stays as it is just when removing its comments a second time
  changes nothing, and otherwise the text has a backslash right before a block comment.
-/

namespace ShopLens.Rule

open ShopLens.Text
open ShopLens.Filter (Symbol)

/-! ## characters that a scan does not look for -/

/-- Whether a scan for comments only passes over a character. -/
def isInert (c : Char) : Bool := !(['"', '\\', '/', '*'].contains c)

/-- The characters with a property are inert if those that a scan looks for do not have it. -/
theorem isInert_of {p : Char → Bool} (hp : ∀ c ∈ ['"', '\\', '/', '*'], p c = false) {c : Char}
    (hc : p c = true) : isInert c = true := by
  rw [isInert, Bool.not_eq_true', ← Bool.not_eq_true, List.contains_iff_mem]
  intro hmem
  simp [hp c hmem] at hc

theorem isInert_of_isBlank {c : Char} (h : isBlank c = true) : isInert c = true :=
  isInert_of (List.all_iff_forall_prop.mp (by decide +kernel)) h

theorem isInert_of_isOperand {c : Char} (h : isOperand c = true) : isInert c = true :=
  isInert_of (List.all_iff_forall_prop.mp (by decide +kernel)) h

namespace Scan

theorem step_of_isInert (s : Scan) {c : Char} (h : isInert c = true) :
    s.step c = some ⟨s.literal, .other⟩ := by
  simp only [isInert, Bool.not_eq_true', ← Bool.not_eq_true, List.contains_iff_mem] at h
  simp only [List.mem_cons, List.not_mem_nil, or_false, not_or] at h
  obtain ⟨hquote, hbackslash, hslash, hstar⟩ := h
  simp [step, Opens, Mark.of, hquote, hbackslash, hslash, hstar]

/-- Behind inert characters only the literal is known. -/
theorem run_of_isInert (s : Scan) {w : List Char} (hne : w ≠ []) (h : ∀ c ∈ w, isInert c = true) :
    s.run w = some ⟨s.literal, .other⟩ := by
  induction w generalizing s with
  | nil => contradiction
  | cons c w ih =>
      rw [run_cons, s.step_of_isInert (h c (by simp)), Option.bind_some]
      cases w with
      | nil => rfl
      | cons d w => exact ih _ (by simp) fun e he => h e (List.mem_cons_of_mem c he)

end Scan

theorem Writes.isInert {k : AffixKind} {m : List Char} {b : Bound} (h : Writes k m b) :
    m ≠ [] ∧ ∀ c ∈ m, isInert c = true := by
  obtain ⟨d, x, rfl, -, hx⟩ := h.exists_tail
  have hname : ∀ c ∈ countName k, Rule.isInert c = true := by
    cases k <;> exact List.all_iff_forall_prop.mp (by decide)
  refine ⟨by simp, fun c hc => ?_⟩
  rcases List.mem_append.mp hc with hc | hc
  · exact hname c hc
  · exact isInert_of_isOperand (hx c hc)

/-- A scan does not tell a comparison from `true`. -/
theorem run_substitute (s : Scan) (cs : List Char) :
    s.run (substitute foundEither? cs).2 = s.run cs := by
  induction cs using substitute.induct foundEither? generalizing s with
  | case1 => simp [substitute]
  | case2 c r f hf bounds text hrest ih =>
      obtain ⟨k, hk⟩ := exists_of_foundEither? hf
      obtain ⟨m, hcs, hm, -⟩ := writes_of_found? hk
      have hcomparison : s.run (c :: r) = Scan.run ⟨s.literal, .other⟩ f.rest := by
        rw [congrArg s.run hcs, Scan.run_append, s.run_of_isInert hm.isInert.1 hm.isInert.2]
        rfl
      have htrue : ∀ e ∈ ['t', 'r', 'u', 'e'], isInert e = true :=
        List.all_iff_forall_prop.mp (by decide)
      rw [substitute_of_some hf, Scan.run_append, s.run_of_isInert (by simp) htrue, Option.bind_some, ih,
        hcomparison]
  | case3 c r hf bounds text hrest ih =>
      rw [substitute_of_none hf, Scan.run_cons, Scan.run_cons]
      simp only [ih]

/-! ## lines -/

/-- Whether a text that starts within a literal or not ends within one, unless a comment starts in it. -/
def ends (literal : Bool) (cs : List Char) : Option Bool :=
  (Scan.run ⟨literal, .other⟩ cs).map Scan.literal

theorem ends_inert_append (literal : Bool) {w : List Char} (h : ∀ c ∈ w, isInert c = true)
    (cs : List Char) : ends literal (w ++ cs) = ends literal cs := by
  cases w with
  | nil => rfl
  | cons c w =>
      rw [ends, Scan.run_append, Scan.run_of_isInert _ (by simp) h]
      rfl

/-- Behind inert characters a text goes on like a new one. -/
theorem ends_append (literal : Bool) (a : List Char) {w : List Char} (hne : w ≠ [])
    (h : ∀ c ∈ w, isInert c = true) (b : List Char) :
    ends literal (a ++ (w ++ b)) = (ends literal a).bind (ends · b) := by
  rw [ends, ends, Scan.run_append]
  cases Scan.run ⟨literal, .other⟩ a with
  | none => rfl
  | some s =>
      rw [Option.bind_some, Scan.run_append, s.run_of_isInert hne h]
      rfl

theorem ends_append_inert (literal : Bool) (a : List Char) {w : List Char}
    (h : ∀ c ∈ w, isInert c = true) : ends literal (a ++ w) = ends literal a := by
  cases w with
  | nil => rw [List.append_nil]
  | cons c w =>
      have hend := ends_append literal a (List.cons_ne_nil c w) h []
      rw [List.append_nil] at hend
      rw [hend]
      cases ends literal a <;> rfl

theorem ends_trim (literal : Bool) (cs : List Char) : ends literal (trim cs) = ends literal cs := by
  obtain ⟨before, after, hcs, hbefore, hafter⟩ := exists_trim cs
  rw [congrArg (ends literal) hcs, ends_append_inert _ _ fun c hc => isInert_of_isBlank (hafter c hc),
    ends_inert_append _ fun c hc => isInert_of_isBlank (hbefore c hc)]

theorem run_unifyBreaks (s : Scan) (cs : List Char) : s.run (unifyBreaks cs) = s.run cs := by
  have hbreak (s : Scan) {c : Char} (hc : c = '\r' ∨ c = '\n') :
      s.step c = some ⟨s.literal, .other⟩ := by
    rcases hc with rfl | rfl <;> exact s.step_of_isInert (by decide)
  fun_induction unifyBreaks cs generalizing s with
  | case1 => rfl
  | case2 r ih =>
      simp only [Scan.run_cons, hbreak _ (.inl rfl), hbreak _ (.inr rfl), Option.bind_some, ih]
  | case3 c r hc ih =>
      rw [Scan.run_cons, Scan.run_cons]
      split
      · next hreturn => simp only [hreturn, hbreak _ (.inl rfl), hbreak _ (.inr rfl), ih]
      · simp only [ih]

theorem ends_unifyBreaks (literal : Bool) (cs : List Char) :
    ends literal (unifyBreaks cs) = ends literal cs := by
  rw [ends, ends, run_unifyBreaks]

theorem ends_pieces (literal : Bool) (ps : List (List Char)) :
    ends literal (['\n'].intercalate ps) = ps.foldlM ends literal := by
  induction ps generalizing literal with
  | nil => rfl
  | cons p ps ih =>
      cases ps with
      | nil => cases h : ends literal p <;> simp [List.intercalate, h]
      | cons q ps =>
          have hfeed : ∀ c ∈ ['\n'], isInert c = true := List.all_iff_forall_prop.mp (by decide)
          rw [List.intercalate_cons_cons, List.append_assoc, ends_append _ _ (by simp) hfeed,
            List.foldlM_cons]
          simp only [ih]
          rfl

theorem ends_joinWithSeams (literal : Bool) (ls : List (List Char)) :
    ends literal (joinWithSeams ls) = ls.foldlM ends literal := by
  induction ls generalizing literal with
  | nil => rfl
  | cons l ls ih =>
      cases ls with
      | nil => cases h : ends literal l <;> simp [joinWithSeams, h]
      | cons m ls =>
          have hseam : seam l m ≠ [] ∧ ∀ c ∈ seam l m, isInert c = true := by
            unfold seam
            split <;> exact ⟨by simp, List.all_iff_forall_prop.mp (by decide)⟩
          rw [joinWithSeams, List.append_assoc, ends_append _ _ hseam.1 hseam.2, List.foldlM_cons]
          simp only [ih]
          rfl

/-- Trimming lines and leaving out blank ones does not matter. -/
theorem foldlM_contentLines (literal : Bool) (ps : List (List Char)) :
    ((ps.map trim).filter (· ≠ [])).foldlM ends literal = ps.foldlM ends literal := by
  induction ps generalizing literal with
  | nil => rfl
  | cons p ps ih =>
      have hp := ends_trim literal p
      by_cases hblank : trim p = []
      · rw [hblank] at hp
        have hsome : ends literal p = some literal := hp.symm
        rw [List.map_cons, List.filter_cons_of_neg (by simpa using hblank), ih, List.foldlM_cons,
          hsome]
        rfl
      · rw [List.map_cons, List.filter_cons_of_pos (by simpa using hblank), List.foldlM_cons,
          List.foldlM_cons, hp]
        simp only [ih]

/-- A scan gets through the joined lines just when it gets through the text. -/
theorem ends_joinLines (literal : Bool) (cs : List Char) :
    ends literal (joinLines cs) = ends literal cs := by
  rw [joinLines, ends_joinWithSeams, contentLines, foldlM_contentLines, ← ends_pieces,
    intercalate_pieces, ends_unifyBreaks]

/-! ## a second time -/

/-- Taking the comparisons out of a line leaves a line. -/
theorem IsLine.substitute {cs : List Char} (h : IsLine cs) : IsLine (substitute foundEither? cs).2 := by
  have hmem {c : Char} (hc : c ∉ cs) (htrue : c ∉ ['t', 'r', 'u', 'e']) :
      c ∉ (Rule.substitute foundEither? cs).2 := fun hleft =>
    (mem_of_mem_substitute capital_foundEither? hleft).elim hc htrue
  have hany {o : Option Char} : (∀ c ∈ o, isBlank c = false) ↔ o.any isBlank = false := by
    cases o <;> simp
  refine ⟨⟨?_, ?_⟩, hmem h.noReturn (by decide), hmem h.noFeed (by decide)⟩
  · rw [hany, head?_substitute capital_foundEither? (by decide) (by decide), ← hany]
    exact h.trimmed.1
  · rw [hany]
    have hlast := hany.mp h.trimmed.2
    refine Bool.eq_false_iff.mpr fun hleft => ?_
    rw [getLast?_substitute capital_foundEither? (by decide) hleft] at hlast
    contradiction

/-- Removing comments changes a text made ready just when it changes the text without comments. -/
theorem stripComments_substitute_iff (cs : List Char) :
    stripComments (substitute foundEither? (joinLines cs)).2 =
      (substitute foundEither? (joinLines cs)).2 ↔ stripComments cs = cs := by
  have hends (cs : List Char) : (ends false cs).isSome = (Scan.start.run cs).isSome :=
    Option.isSome_map
  rw [stripComments_eq_self_iff, stripComments_eq_self_iff, run_substitute, ← hends, ← hends,
    ends_joinLines]

/-- A line without comments and comparisons is ready. -/
theorem prepare_of_line {cs : List Char} (hline : IsLine cs) (hcomments : stripComments cs = cs)
    (hnone : ∀ k, extract k cs = ([], cs)) : prepare (String.ofList cs) = ⟨String.ofList cs, {}⟩ := by
  rw [prepare, String.toList_ofList, hcomments, hline.joinLines]
  simp only [hnone]
  rfl

/-- A line that stays as it is has no comments. -/
theorem stripComments_of_prepare {cs : List Char} (hline : IsLine cs)
    (h : (prepare (String.ofList cs)).expression = String.ofList cs) : stripComments cs = cs := by
  have hleft := stripComments_sublist cs
  have hjoin : joinLines (stripComments cs) = trim (stripComments cs) :=
    joinLines_of_single (fun hc => hline.noReturn (hleft.subset hc))
      fun hc => hline.noFeed (hleft.subset hc)
  rw [prepare_eq, String.toList_ofList, String.ofList_inj, hjoin] at h
  refine hleft.eq_of_length_le ?_
  calc cs.length = (substitute foundEither? (trim (stripComments cs))).2.length := by rw [h]
    _ ≤ (trim (stripComments cs)).length := length_substitute_le _
    _ ≤ (stripComments cs).length := length_trim_le _

/-- **Making a text ready again.** A text made ready stays as it is, without comparisons, just when
removing the comments of the text a second time changes nothing; otherwise the text has a backslash
right before a block comment. -/
theorem prepare_prepare (text : String) :
    (prepare (prepare text).expression = ⟨(prepare text).expression, {}⟩ ↔
      stripComments (stripComments text.toList) = stripComments text.toList) ∧
    (stripComments (stripComments text.toList) = stripComments text.toList ∨
      ['\\', '/', '*'] <:+: text.toList) := by
  refine ⟨?_, ?_⟩
  · have hline : IsLine (substitute foundEither? (joinLines (stripComments text.toList))).2 :=
      (isLine_joinLines _).substitute
    rw [← stripComments_substitute_iff, prepare_eq text]
    constructor
    · intro h
      exact stripComments_of_prepare hline (congrArg Prepared.expression h)
    · intro h
      exact prepare_of_line hline h fun k => substitute_substitute k _
  · by_cases h : ['\\', '/', '*'] <:+: text.toList
    · exact .inr h
    · exact .inl (stripComments_stripComments h)

/-- A block comment between a backslash and a quote: the quote starts a literal until the comment is
removed. -/
theorem prepare_escaped_quote :
    (prepare "\\/**/\" //x\"").expression = "\\\" //x\"" ∧
      (prepare (prepare "\\/**/\" //x\"").expression).expression = "\\\"" := by
  have hready {text : String} {e : List Char} (hjoin : joinLines (stripComments text.toList) = e)
      (he : 'O' ∉ e) : (prepare text).expression = String.ofList e := by
    rw [prepare_eq, hjoin]
    show String.ofList (substitute foundEither? e).2 = String.ofList e
    rw [substitute_of_not_mem capital_foundEither? he]
  have hfirst : (prepare "\\/**/\" //x\"").expression = "\\\" //x\"" :=
    hready (by decide) (by decide)
  refine ⟨hfirst, ?_⟩
  rw [hfirst]
  exact hready (by decide) (by decide)

end ShopLens.Rule
