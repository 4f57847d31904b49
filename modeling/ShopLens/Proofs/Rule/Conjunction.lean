import ShopLens.Proofs.Filter.Verdict
import ShopLens.Proofs.Rule.Bindings
import ShopLens.Proofs.Rule.Conjuncts

/-!
# ShopLens.Proofs.Rule.Conjunction

What a conjunction of bounds and expressions means, as a rule and as an expression. A rule has its
bounds taken out, and compares the greatest of them with the number of open affixes; an expression
evaluates its conjuncts in turn, each bound as a comparison of integers. Both hold of the same items
(`isMatch_conjunction`): a bound costs the reader as many levels as `true` does, and one that is no
integer of 64 bits, with which the text is no expression, is greater than every number of affixes.
-/

namespace ShopLens.Rule

open ShopLens.Text ShopLens.Filter

variable {limits : AffixLimits} {l : Listing}

/-! ## conjuncts as expressions -/

namespace Conjunct

/-- Whether the numbers in a conjunct are integers of 64 bits. -/
def InRange : Conjunct → Prop
  | bound _ _ digits _ _ => ∃ n, Decimal.within64? (Decimal.ofDigits digits) = some n
  | group _ _ => True

/-- Whether the expression in a conjunct holds. -/
def GroupHolds (limits : AffixLimits) (l : Listing) : Conjunct → Prop
  | bound .. => True
  | group e _ => ∃ p, compile e = .ok p ∧ p limits l = .ok true

end Conjunct

theorem predicate_eq_ok_iff (e : Expr) (b : Bool) :
    e.predicate limits l = .ok b ↔ e.verdict limits l = some b := by
  rw [← toOption_predicate]
  cases e.predicate limits l <;> simp [Except.toOption]

/-- The tokens of a bound up to its operator. -/
theorem lexes_comparison (k : AffixKind) (strict : Bool) :
    Lexes (countName k ++ (['(', ')'] ++ ([' '] ++ (Symbol.cmp (Conjunct.op strict)).chars)))
      [.ident (String.ofList (countName k)), .sym .lparen, .sym .rparen,
        .sym (.cmp (Conjunct.op strict))] := by
  have hop : Lexes ((Symbol.cmp (Conjunct.op strict)).chars ++ [])
      [.sym (.cmp (Conjunct.op strict))] := .token (.sym _) (goesOn_nil _) .nil
  rw [List.append_nil] at hop
  have hclose : Lexes ([')'] ++ ([' '] ++ (Symbol.cmp (Conjunct.op strict)).chars))
      [.sym .rparen, .sym (.cmp (Conjunct.op strict))] :=
    .token (.sym .rparen) rfl (.blank (by decide) hop)
  exact .token (.ident (isName_countName k)) (goesOn_name (by decide) _)
    (.token (w := ['(']) (.sym .lparen) rfl hclose)

theorem function?_countName (k : AffixKind) : function? (String.ofList (countName k)) = some k := by
  cases k <;> decide

theorem verdict_bound (k : AffixKind) (strict : Bool) (digits : List Char) :
    (Expr.compare (Conjunct.op strict) (.openCount k)
        (.literal (.int (Decimal.ofDigits digits)))).verdict limits l = some true ↔
      Conjunct.least strict digits ≤ limits.openCount l k := by
  have hverdict : (Expr.compare (Conjunct.op strict) (.openCount k)
      (.literal (.int (Decimal.ofDigits digits)))).verdict limits l =
      some ((Conjunct.op strict).holds
        (compare (limits.openCount l k : Int) (Decimal.ofDigits digits : Int))) := rfl
  rw [hverdict, Option.some_inj]
  cases strict with
  | false =>
      show (compare (limits.openCount l k : Int) (Decimal.ofDigits digits : Int) != .lt) = true ↔
        Decimal.ofDigits digits ≤ limits.openCount l k
      rw [bne_iff_ne, ne_eq, Int.compare_eq_lt]
      omega
  | true =>
      show (compare (limits.openCount l k : Int) (Decimal.ofDigits digits : Int) == .gt) = true ↔
        Decimal.ofDigits digits + 1 ≤ limits.openCount l k
      rw [beq_iff_eq, Int.compare_eq_gt]
      omega

/-- A conjunct is an expression, with the bound in it and without, of the same cost. -/
theorem Conjunct.exists_reads (c : Conjunct) (hrange : c.InRange) :
    ∃ ts us d e f, Lexes c.chars ts ∧ Derives .negation 0 d ts e ∧ Lexes c.left us ∧
      Derives .negation 0 d us f ∧ ∀ limits l,
        (e.verdict limits l = some true ↔ c.BoundHolds limits l ∧ c.GroupHolds limits l) ∧
        (f.verdict limits l = some true ↔ c.GroupHolds limits l) := by
  cases c with
  | bound k strict digits hne hd =>
      obtain ⟨n, hn⟩ := hrange
      have hint : Lexes ([' '] ++ (digits ++ [])) [.int n] :=
        .blank (by decide) (.token (w := digits) (.int hne hd hn) (goesOn_nil _) .nil)
      rw [List.append_nil] at hint
      have hchars := (lexes_comparison k strict).append hint rfl
      have hleft : Lexes (['t', 'r', 'u', 'e'] ++ []) [.ident "true"] :=
        .token (.ident (by decide)) (goesOn_nil _) .nil
      obtain rfl : (Decimal.ofDigits digits : Int) = n := by
        unfold Decimal.within64? at hn
        split at hn
        · exact Option.some.inj hn
        · contradiction
      refine ⟨_, _, 0, _, _, by simpa [chars] using hchars,
        .ofComparison (.compare (op strict) (.ofAtom (.function (function?_countName k)))
          (.ofAtom (.int _))), hleft,
        .ofComparison (.ofOperand (.ofAtom (.keyword rfl))), fun limits l => ⟨?_, ?_⟩⟩
      · rw [GroupHolds, and_true]
        exact verdict_bound k strict digits
      · rw [GroupHolds, iff_true]
        rfl
  | group e h =>
      obtain ⟨p, hp⟩ := h.accepted
      obtain ⟨ts, n, c, x, hts, hder, -, rfl⟩ := derives_of_compile hp
      have hclose : Lexes (e.toList ++ [' ', ')']) (ts ++ [.sym .rparen]) :=
        hts.append (.blank (by decide) (.token (w := [')']) (.sym .rparen) rfl .nil)) rfl
      have hchars : Lexes (group e h).chars (.sym .lparen :: ts ++ [.sym .rparen]) :=
        .token (w := ['(']) (.sym .lparen) rfl (.blank (by decide) hclose)
      have hgroup : Derives .negation 0 (c + 1) (.sym .lparen :: ts ++ [.sym .rparen]) x :=
        .ofComparison (.ofOperand (.ofAtom (.parens hder)))
      have hholds (limits : AffixLimits) (l : Listing) :
          x.verdict limits l = some true ↔ (group e h).GroupHolds limits l := by
        rw [← predicate_eq_ok_iff, GroupHolds, hp]
        simp
      refine ⟨_, _, _, _, _, hchars, hgroup, hchars, hgroup, fun limits l => ⟨?_, hholds limits l⟩⟩
      rw [hholds]
      simp [BoundHolds]

/-! ## conjunctions as expressions -/

/-- A text is a conjunction with so many links and so great a cost. -/
def IsConjunction (w : List Char) (n c : Nat) (e : Expr) : Prop :=
  ∃ ts, Lexes w ts ∧ Derives (.chain .and) n c ts e

theorem IsConjunction.and {w v : List Char} {n c m d : Nat} {e f : Expr} {us : List Token}
    (h : IsConjunction w n c e) (hv : Lexes v us) (hder : Derives .negation m d us f) :
    IsConjunction (w ++ ([' ', '&', '&', ' '] ++ v)) (n + 1) (max c (n + 1 + d)) (.and e f) := by
  obtain ⟨ts, hts, hder'⟩ := h
  exact ⟨_, hts.append (hv.spaced .and) rfl, hder'.link (k := .and) hder⟩

theorem conjoin_cons_cons' (w v : List Char) (ws : List (List Char)) :
    conjoin (w :: v :: ws) = conjoin ((w ++ ([' ', '&', '&', ' '] ++ v)) :: ws) := by
  cases ws with
  | nil => rw [conjoin_cons_cons, conjoin_singleton, conjoin_singleton]
  | cons u ws =>
      rw [conjoin_cons_cons, conjoin_cons_cons v, conjoin_cons_cons]
      simp only [List.append_assoc]

theorem verdict_and_eq_true (e f : Expr) :
    (Expr.and e f).verdict limits l = some true ↔
      e.verdict limits l = some true ∧ f.verdict limits l = some true := by
  rw [verdict_and]
  cases e.verdict limits l with
  | none => simp
  | some b => cases b <;> simp

/-- Further conjuncts make the texts with bounds and without longer by the same number of links, and
cost the same. -/
theorem exists_conjunctions (cs : List Conjunct) (hrange : ∀ c ∈ cs, c.InRange)
    {w v : List Char} {n d : Nat} {e f : Expr} (hw : IsConjunction w n d e)
    (hv : IsConjunction v n d f) :
    ∃ n d e' f', IsConjunction (conjoin (w :: cs.map Conjunct.chars)) n d e' ∧
      IsConjunction (conjoin (v :: cs.map Conjunct.left)) n d f' ∧ ∀ limits l,
        (e'.verdict limits l = some true ↔ e.verdict limits l = some true ∧
          ∀ c ∈ cs, c.BoundHolds limits l ∧ c.GroupHolds limits l) ∧
        (f'.verdict limits l = some true ↔ f.verdict limits l = some true ∧
          ∀ c ∈ cs, c.GroupHolds limits l) := by
  induction cs generalizing w v n d e f with
  | nil => exact ⟨n, d, e, f, by simpa using hw, by simpa using hv, fun _ _ => by simp⟩
  | cons c cs ih =>
      obtain ⟨ts, us, a, x, y, hts, hx, hus, hy, hholds⟩ :=
        c.exists_reads (hrange c List.mem_cons_self)
      obtain ⟨n', d', e', f', he', hf', hall⟩ :=
        ih (fun c' hc' => hrange c' (List.mem_cons_of_mem c hc')) (hw.and hts hx) (hv.and hus hy)
      refine ⟨n', d', e', f', ?_, ?_, fun limits l => ⟨?_, ?_⟩⟩
      · rw [List.map_cons, conjoin_cons_cons']
        exact he'
      · rw [List.map_cons, conjoin_cons_cons']
        exact hf'
      · rw [(hall limits l).1, verdict_and_eq_true, (hholds limits l).1, List.forall_mem_cons]
        exact and_assoc
      · rw [(hall limits l).2, verdict_and_eq_true, (hholds limits l).2, List.forall_mem_cons]
        exact and_assoc

/-- A conjunction is an expression, with its bounds and without, of the same cost. -/
theorem exists_conjunction {cs : List Conjunct} (hne : cs ≠ []) (hrange : ∀ c ∈ cs, c.InRange) :
    ∃ n d e f, IsConjunction (conjoin (cs.map Conjunct.chars)) n d e ∧
      IsConjunction (conjoin (cs.map Conjunct.left)) n d f ∧ ∀ limits l,
        (e.verdict limits l = some true ↔
          ∀ c ∈ cs, c.BoundHolds limits l ∧ c.GroupHolds limits l) ∧
        (f.verdict limits l = some true ↔ ∀ c ∈ cs, c.GroupHolds limits l) := by
  cases cs with
  | nil => contradiction
  | cons c cs =>
      obtain ⟨ts, us, a, x, y, hts, hx, hus, hy, hholds⟩ :=
        c.exists_reads (hrange c List.mem_cons_self)
      obtain ⟨n, d, e, f, he, hf, hall⟩ := exists_conjunctions cs
        (fun c' hc' => hrange c' (List.mem_cons_of_mem c hc')) ⟨ts, hts, hx.conjunction⟩
        ⟨us, hus, hy.conjunction⟩
      refine ⟨n, d, e, f, he, hf, fun limits l => ⟨?_, ?_⟩⟩
      · rw [(hall limits l).1, (hholds limits l).1, List.forall_mem_cons]
      · rw [(hall limits l).2, (hholds limits l).2, List.forall_mem_cons]

/-- A conjunction is accepted if it does not cost too much. -/
theorem compile_conjunction_iff {w : List Char} {n d : Nat} {e : Expr} (h : IsConjunction w n d e) :
    (∃ p, compile (String.ofList w) = .ok p ∧ p limits l = .ok true) ↔
      d ≤ maxNesting ∧ e.verdict limits l = some true := by
  obtain ⟨ts, hts, hder⟩ := h
  have hlexes : Lexes (String.ofList w).toList ts := by rwa [String.toList_ofList]
  by_cases hd : d ≤ maxNesting
  · rw [compile_of_lexes hlexes hder.disjunction hd, ← predicate_eq_ok_iff]
    simp [hd]
  · obtain ⟨pos, hdeep⟩ := tooDeep_of_lexes hlexes hder.disjunction (Nat.lt_of_not_le hd)
    rw [hdeep]
    simp [hd]

theorem startsApart_of_startsBlank {r : List Char} (h : startsBlank r = true) :
    startsApart r = true ∧ startsFraction r = false := by
  cases r with
  | nil => exact ⟨rfl, rfl⟩
  | cons c r =>
      have hc : isBlank c = true := h
      refine ⟨by simp [startsApart, hc], ?_⟩
      rw [startsFraction_cons, Bool.and_eq_false_iff]
      refine .inl (beq_false_of_ne ?_)
      rintro rfl
      exact absurd hc (by decide)

/-- A conjunct in a text with tokens has a number that is an integer of 64 bits, and the text goes on
behind it. -/
theorem Conjunct.inRange_of_append (c : Conjunct) {r : List Char} (hr : startsBlank r = true)
    {pos : Nat} {ps : List Placed} (h : LexesFrom pos (c.chars ++ r) ps) :
    c.InRange ∧ ∃ qs, LexesFrom (pos + byteLength c.chars) r qs := by
  obtain ⟨hapart, hfraction⟩ := startsApart_of_startsBlank hr
  have hrange : c.InRange := by
    cases c with
    | group e h => trivial
    | bound k strict digits hne hd =>
        have htext : (bound k strict digits hne hd).chars ++ r =
            countName k ++ (['(', ')'] ++ ([' '] ++ (Symbol.cmp (op strict)).chars)) ++
              ([' '] ++ (digits ++ r)) := by
          simp [chars]
        obtain ⟨ts, hts, -⟩ := Lexes.lexes_iff.mp (lexes_comparison k strict)
        obtain ⟨ts, hts, -⟩ := hts.shift pos
        rw [htext] at h
        obtain ⟨qs, -, hqs⟩ := hts.of_append rfl h
        obtain ⟨n, -, hn, -⟩ := (hqs.of_blanks_append
          (List.all_iff_forall_prop.mp (by decide))).exists_int hne
          (fun d hd' => isDecimal_of_isDigit (hd d hd')) (head?_any_isDecimal_of_blank hr) hfraction
        cases hn with
        | int _ _ hn => exact ⟨n, hn⟩
  obtain ⟨ts, -, -, -, -, hts, -⟩ := c.exists_reads hrange
  obtain ⟨ts, hts, -⟩ := Lexes.lexes_iff.mp hts
  obtain ⟨ts, hts, -⟩ := hts.shift pos
  obtain ⟨qs, -, hqs⟩ := hts.of_append hapart h
  exact ⟨hrange, qs, hqs⟩

/-- In a text with tokens all numbers of conjuncts are integers of 64 bits. -/
theorem inRange_of_lexesFrom {cs : List Conjunct} (hne : cs ≠ []) {pos : Nat} {ps : List Placed}
    (h : LexesFrom pos (conjoin (cs.map Conjunct.chars)) ps) : ∀ c ∈ cs, c.InRange := by
  induction cs generalizing pos ps with
  | nil => contradiction
  | cons c cs ih =>
      cases cs with
      | nil =>
          rw [List.map_singleton, conjoin_singleton, ← List.append_nil c.chars] at h
          simpa using (c.inRange_of_append rfl h).1
      | cons c' cs =>
          rw [List.map_cons, List.map_cons, conjoin_cons_cons] at h
          obtain ⟨hc, qs, hqs⟩ := c.inRange_of_append rfl h
          obtain ⟨rs, -, hrs⟩ := (hqs.of_blank rfl).of_token (w := ['&', '&']) (.sym .and) rfl
          refine List.forall_mem_cons.mpr ⟨hc, ih (by simp) (hrs.of_blank rfl)⟩

/-- A number that is no integer of 64 bits is greater than every number of open affixes. -/
theorem Conjunct.not_boundHolds (c : Conjunct) (h : ¬c.InRange) : ¬c.BoundHolds limits l := by
  cases c with
  | group e he => exact absurd trivial h
  | bound k strict digits hne hd =>
      intro hholds
      refine h ⟨Decimal.ofDigits digits, if_pos ?_⟩
      have hcount := openCount_lt limits l k
      have hleast : Decimal.ofDigits digits ≤ Conjunct.least strict digits := Nat.le_add_right _ _
      have hmin : Decimal.minInt = -9223372036854775808 := rfl
      have hmax : Decimal.maxInt = 9223372036854775807 := rfl
      rw [BoundHolds] at hholds
      omega

/-! ## rules -/

/-- **A conjunction means the same as a rule and as an expression.** -/
theorem isMatch_conjunction {cs : List Conjunct} (hne : cs ≠ []) {sources : List RuleSource} {i : Nat}
    {entry : RuleEntry} (hsource : sources[i]? = some ⟨entry, .loaded (conjunction cs)⟩)
    (henabled : entry.enabled = true) (limits : AffixLimits) {l : Listing} (htab : 0 ≤ l.tab)
    (hdisplayed : l.displayed = true) :
    ∃ b, (compileRules compile sources).set.bindings[i]? = some b ∧
      (b.isMatch limits l = true ↔
        ∃ p, compile (conjunction cs) = .ok p ∧ p limits l = .ok true) := by
  refine ⟨_, bindings_compileRules hsource, ?_⟩
  rw [isMatch_bind_iff henabled, admits_conjunction hne limits htab hdisplayed,
    prepare_conjunction hne]
  show _ ∧ (∃ p, compile (String.ofList (conjoin (cs.map Conjunct.left))) = .ok p ∧ _) ↔ _
  by_cases hrange : ∀ c ∈ cs, c.InRange
  · -- both texts are conjunctions of the same cost
    obtain ⟨n, d, e, f, he, hf, hholds⟩ := exists_conjunction hne hrange
    rw [conjunction, compile_conjunction_iff he, compile_conjunction_iff hf, (hholds limits l).1,
      (hholds limits l).2, forall₂_and]
    exact and_left_comm
  · -- a number is too great for the expression, and for the rule too
    obtain ⟨c, hc, hnot⟩ : ∃ c ∈ cs, ¬c.InRange := by simpa using hrange
    constructor
    · intro h
      exact absurd (h.1 c hc) (c.not_boundHolds hnot)
    · rintro ⟨p, hp, -⟩
      obtain ⟨ts, -, -, -, hts, -⟩ := derives_of_compile hp
      rw [conjunction, String.toList_ofList] at hts
      obtain ⟨ps, hps, -⟩ := Lexes.lexes_iff.mp hts
      exact absurd (inRange_of_lexesFrom hne hps c hc) hnot

theorem isPlain_isDisplayed : IsPlain "IsDisplayed" where
  accepted := ⟨Expr.predicate (.field "IsDisplayed"), compile_of_lexes
    ⟨[⟨.ident "IsDisplayed", 0⟩], by decide +kernel, rfl⟩
    (Derives.field rfl).ofAtom.ofOperand.ofComparison.conjunction.disjunction (by decide)⟩
  noReturn := by decide
  noFeed := by decide
  noSlash := by decide
  noName k h := by
    have hO : 'O' ∈ countName k := by cases k <;> decide
    exact absurd (h.subset hO) (by decide)

/-- A rule with a bound and an expression, and a ring without affixes. -/
theorem isMatch_conjunction_of_ring :
    let cs : List Conjunct :=
      [.bound .prefixMod true ['0'] (by decide) (List.all_iff_forall_prop.mp (by decide)),
        .group "IsDisplayed" isPlain_isDisplayed]
    let source : RuleSource := ⟨{ name := "open", location := "open.ifl", enabled := true },
      .loaded (conjunction cs)⟩
    let ring : Listing := .shown (.ring 1) .shopItem ⟨100, 100, 50, 50⟩ 0 .zero
    conjunction cs = "OpenPrefixCount() > 0 && ( IsDisplayed )" ∧ cs ≠ [] ∧
      [source][0]? = some source ∧ source.entry.enabled = true ∧ 0 ≤ ring.tab ∧
      ring.displayed = true ∧
      ∃ b, (compileRules compile [source]).set.bindings[0]? = some b ∧
        (b.isMatch {} ring = true ↔
          ∃ p, compile (conjunction cs) = .ok p ∧ p {} ring = .ok true) := by
  intro cs source ring
  have hne : cs ≠ [] := by simp [cs]
  have hsource : [source][0]? = some source := rfl
  exact ⟨by decide, hne, rfl, rfl, by decide, rfl,
    isMatch_conjunction hne hsource rfl {} (by decide) rfl⟩

end ShopLens.Rule
