import ShopLens.Proofs.Filter.Unambiguity

/-!
# ShopLens.Proofs.Filter.Language

The parser accepts the grammar up to the nesting limit. A phrase that costs more levels than there are
left is refused as nested too deeply, and for nothing else (`tooDeep_of_derives`): what is read of it
until the limit is reached is read as in a phrase that keeps to the limit.

So tokens that make up an expression have one tree, and the parser finds it or refuses them as nested
too deeply, whereas it never accepts other tokens (`parseTokens_grammar`). Which of the two it is
depends on the cost of the tokens alone (`parseTokens_eq_ok_iff`, `tooDeep_iff_of_derives`).
-/

namespace ShopLens.Filter

/-! ## refusals on the way -/

/-- The outcome is a refusal for being nested too deeply. -/
def TooDeep {n : Nat} (r : Except Halt (Parsed Expr n)) : Prop := ∃ pos, r = fault pos .tooDeep

theorem tooDeep_of_outcome {m n : Nat} {r : Except Halt (Parsed Expr m)}
    {r' : Except Halt (Parsed Expr n)} (heq : outcome r = outcome r') (h : TooDeep r') :
    TooDeep r := by
  obtain ⟨pos, rfl⟩ := h
  cases r with
  | error => exact ⟨pos, congrArg Except.error (Except.error.inj heq)⟩
  | ok p => contradiction

namespace TooDeep

variable {inner : Parser Expr} {stop depth pos : Nat} {e : Expr} {ts r : List Placed}

/-- Behind a parenthesis no level is left, or the disjunction there is too deep. -/
theorem parens (h : depth < maxNesting → TooDeep (inner (depth + 1) r)) :
    TooDeep (atom inner stop depth (⟨.sym .lparen, pos⟩ :: r)) := by
  by_cases hd : depth < maxNesting
  · obtain ⟨pos', hinner⟩ := h hd
    exact ⟨pos', by simp [atom, enclosed, hd, hinner, fault]⟩
  · exact ⟨pos, by simp [atom, enclosed, hd, fault]⟩

theorem operand (h : TooDeep (atom inner stop depth ts)) :
    TooDeep (operand inner stop depth ts) := by
  obtain ⟨pos, hatom⟩ := h
  exact ⟨pos, by simp [Filter.operand, hatom, fault]⟩

/-- The argument of a method is too deep. -/
theorem method {pos' : Nat} {name : String} {how : Search}
    (hname : Method.ofName? name = some (.search how))
    (hr : ∀ pos' r', r ≠ ⟨.sym .rparen, pos'⟩ :: r') (h : TooDeep (inner depth r)) :
    TooDeep (method inner stop depth e (⟨.ident name, pos⟩ :: ⟨.sym .lparen, pos'⟩ :: r)) := by
  obtain ⟨pos₁, hinner⟩ := h
  have harguments : arguments inner stop depth r = fault pos₁ .tooDeep := by
    unfold arguments
    split
    · next pos₂ r' => exact absurd rfl (hr pos₂ r')
    · simp [argumentsFrom, hinner, fault]
  exact ⟨pos₁, by simp [Filter.method, hname, harguments, fault]⟩

/-- Behind a dot no level is left, or the method there is too deep. -/
theorem methodsFrom (h : depth < maxNesting → TooDeep (Filter.method inner stop (depth + 1) e r)) :
    TooDeep (methodsFrom inner stop depth e (⟨.sym .dot, pos⟩ :: r)) := by
  rw [Filter.methodsFrom]
  by_cases hd : depth < maxNesting
  · obtain ⟨pos', hmethod⟩ := h hd
    exact ⟨pos', by simp [hd, hmethod, fault]⟩
  · exact ⟨offset stop r, by simp [hd, fault]⟩

theorem comparison (h : TooDeep (Filter.operand inner stop depth ts)) :
    TooDeep (comparison inner stop depth ts) := by
  obtain ⟨pos, hoperand⟩ := h
  exact ⟨pos, by simp [Filter.comparison, hoperand, fault]⟩

/-- The second operand of a comparison is too deep. -/
theorem comparison_right {op : Comparison}
    (h : outcome (Filter.operand inner stop depth ts) = .ok (e, ⟨.sym (.cmp op), pos⟩ :: r))
    (h' : TooDeep (Filter.operand inner stop depth r)) :
    TooDeep (Filter.comparison inner stop depth ts) := by
  obtain ⟨p, hp, rfl, hr⟩ := outcome_eq_ok h
  obtain ⟨pos', hright⟩ := h'
  refine ⟨pos', ?_⟩
  unfold Filter.comparison
  rw [hp]
  dsimp only
  split
  · next op' pos₁ r' hrest =>
      obtain ⟨-, rfl⟩ := List.cons.inj (hrest.symm.trans hr)
      simp [hright, fault]
  · next hne => exact absurd hr (hne _ _ _)

/-- Behind a `!` no level is left, or the negation there is too deep. -/
theorem negation (h : depth < maxNesting → TooDeep (negation inner stop (depth + 1) r)) :
    TooDeep (Filter.negation inner stop depth (⟨.sym .not, pos⟩ :: r)) := by
  rw [Filter.negation]
  by_cases hd : depth < maxNesting
  · obtain ⟨pos', hnegation⟩ := h hd
    exact ⟨pos', by simp [hd, hnegation, fault]⟩
  · exact ⟨pos, by simp [hd, fault]⟩

section Chains

variable {op : Symbol} {join : Expr → Expr → Expr} {link : Parser Expr}

theorem chain (h : TooDeep (link depth ts)) : TooDeep (chain stop op join link depth ts) := by
  obtain ⟨pos, hlink⟩ := h
  exact ⟨pos, by simp [Filter.chain, hlink, fault]⟩

/-- Behind an operator no level is left, or the operand there is too deep. -/
theorem linksFrom (h : depth < maxNesting → TooDeep (link (depth + 1) r)) :
    TooDeep (linksFrom stop op join link depth e (⟨.sym op, pos⟩ :: r)) := by
  rw [Filter.linksFrom]
  by_cases hd : depth < maxNesting
  · obtain ⟨pos', hlink⟩ := h hd
    exact ⟨pos', by simp [hd, hlink, fault]⟩
  · exact ⟨offset stop r, by simp [hd, fault]⟩

end Chains

end TooDeep

/-! ## phrases -/

/-- **Refusal, phrase by phrase**: a phrase that costs more levels than are left is refused as nested
too deeply. -/
theorem tooDeep_of_derives {form : Form} {n c : Nat} {ts : List Token} {e : Expr}
    (h : Derives form n c ts e) (stop depth budget : Nat) {ps rest : List Placed}
    (hps : bare ps = ts) (hd : depth ≤ maxNesting) (hc : maxNesting < depth + c) (hb : c ≤ budget)
    (hr : form.part.EndsAt rest) :
    TooDeep (form.parser (exprWithin stop budget) stop depth (ps ++ rest)) := by
  induction h generalizing depth budget ps rest with
  | parens h ih =>
      obtain ⟨pos, qs, pos₁, rfl, hqs⟩ := bare_eq_enclosed hps
      obtain ⟨budget, rfl⟩ : ∃ b, budget = b + 1 := ⟨budget - 1, by omega⟩
      rw [List.append_assoc]
      refine TooDeep.parens fun hlt => ?_
      exact ih (depth + 1) budget hqs hlt (by omega) (by omega) (endsAt_part endsAt_rparen)
  | ofAtom h ih => exact (ih depth budget hps hd hc hb hr).operand
  | @count n c ts e name h hm ih =>
      obtain ⟨qs, pos, pos₁, pos₂, pos₃, rfl, hqs⟩ := bare_eq_count hps
      rw [List.append_assoc]
      -- either the target costs too much already, or it is read and the dot behind it does
      by_cases hleft : maxNesting < depth + c
      · exact ih depth budget hqs hd hleft (by omega) endsAt_dot
      · refine tooDeep_of_outcome
          (outcome_of_derives h stop depth budget hqs (by omega) (by omega) endsAt_dot) ?_
        exact TooDeep.methodsFrom (by omega)
  | @search n m c d ts us e f name how h hm ha ih iha =>
      obtain ⟨qs, pos, pos₁, pos₂, as, pos₃, rfl, hqs, has⟩ := bare_eq_search hps
      obtain ⟨budget, rfl⟩ : ∃ b, budget = b + 1 := ⟨budget - 1, by omega⟩
      rw [List.append_assoc, List.cons_append, List.cons_append, List.cons_append, List.append_assoc]
      by_cases hleft : maxNesting < depth + c
      · exact ih depth _ hqs hd hleft (by omega) endsAt_dot
      · refine tooDeep_of_outcome
          (outcome_of_derives h stop depth _ hqs (by omega) (by omega) endsAt_dot) ?_
        refine TooDeep.methodsFrom fun hlt => TooDeep.method hm (ha.ne_rparen_cons has _) ?_
        exact iha (depth + n + 1) budget has hlt (by omega) (by omega) (endsAt_part endsAt_rparen)
  | ofOperand h ih =>
      have hend : Form.operand.EndsAt rest := endsAt_operand (by decide) hr
      exact (ih depth budget hps hd hc hb (endsAt_part hend)).comparison
  | @compare n m c d ts us e f op h h' ih ih' =>
      obtain ⟨qs, pos, rs, rfl, hqs, hrs⟩ := bare_eq_infix hps
      have hend : Form.operand.EndsAt rest := endsAt_operand (by decide) hr
      have hend' : Form.operand.EndsAt (⟨.sym (.cmp op), pos⟩ :: (rs ++ rest)) := endsAt_cmp
      rw [List.append_assoc]
      by_cases hleft : maxNesting < depth + c
      · exact (ih depth budget hqs hd hleft (by omega) (endsAt_part hend')).comparison
      · have hread := outcome_of_derives h stop depth budget hqs (by omega) (by omega)
          (endsAt_part hend')
        rw [goOn_of_endsAt hend'] at hread
        exact TooDeep.comparison_right hread
          (ih' depth budget hrs hd (by omega) (by omega) (endsAt_part hend))
  | ofComparison h ih =>
      have hin := ih depth budget hps hd hc hb (endsAt_negation_iff.mp hr)
      show TooDeep (negation _ stop depth _)
      rw [negation_of_derives h hps rest]
      exact hin
  | not h ih =>
      obtain ⟨pos, qs, rfl, hqs⟩ := bare_eq_cons hps
      exact TooDeep.negation fun hlt => ih (depth + 1) budget hqs hlt (by omega) (by omega) hr
  | @first k n c ts e h ih =>
      have hend : k.link.EndsAt rest := hr
      rw [parser_chain]
      exact (ih depth budget hps hd hc hb (endsAt_part hend)).chain
  | @link k n m c d ts us e f h h' ih ih' =>
      obtain ⟨qs, pos, rs, rfl, hqs, hrs⟩ := bare_eq_infix hps
      have hend : k.link.EndsAt rest := hr
      rw [List.append_assoc, List.cons_append]
      by_cases hleft : maxNesting < depth + c
      · exact ih depth budget hqs hd hleft (by omega) endsAt_symbol
      · refine tooDeep_of_outcome
          (outcome_of_derives h stop depth budget hqs (by omega) (by omega) endsAt_symbol) ?_
        exact TooDeep.linksFrom fun hlt =>
          ih' (depth + n + 1) budget hrs hlt (by omega) (by omega) (endsAt_part hend)
  | _ => omega

/-- The tokens of a disjunction with too few levels are refused as nested too deeply. -/
theorem parseTokens_of_derives_of_lt {n c : Nat} {e : Expr} {stop : Nat} {ps : List Placed}
    (h : Derives (.chain .or) n c (bare ps) e) (hc : maxNesting < c) :
    ∃ pos, parseTokens stop ps = .error (.malformed pos .tooDeep) := by
  have hlen : c ≤ ps.length := by simpa [bare] using h.cost_le_length
  obtain ⟨pos, hdeep⟩ :
      TooDeep ((Form.chain .or).parser (exprWithin stop ps.length) stop 0 (ps ++ [])) :=
    tooDeep_of_derives h stop 0 ps.length rfl (Nat.zero_le _) (by omega) hlen (endsAt_nil _)
  rw [List.append_nil] at hdeep
  have hread : exprWithin stop (ps.length + 1) 0 ps = fault pos .tooDeep := hdeep
  have hne : ps ≠ [] := by
    rintro rfl
    simp at hlen
    omega
  exact ⟨pos, by simp [parseTokens, hne, hread, fault, complete, Halt.error]⟩

/-! ## the language of the parser -/

/-- The tokens make up an expression, which means `e`. -/
def Means (ts : List Token) (e : Expr) : Prop := ∃ links cost, Derives (.chain .or) links cost ts e

/-- The cost of the tokens decides whether they are accepted. -/
theorem parseTokens_eq_ok_iff {stop : Nat} {ps : List Placed} {e : Expr} :
    parseTokens stop ps = .ok e ↔
      ∃ links cost, Derives (.chain .or) links cost (bare ps) e ∧ cost ≤ maxNesting := by
  constructor
  · exact derives_of_parseTokens
  · rintro ⟨links, cost, h, hcost⟩
    exact parseTokens_of_derives h hcost

/-- Tokens that make up an expression are refused as nested too deeply just when they cost more levels
than there are. -/
theorem tooDeep_iff_of_derives {n c : Nat} {e : Expr} {stop : Nat} {ps : List Placed}
    (h : Derives (.chain .or) n c (bare ps) e) :
    (∃ pos, parseTokens stop ps = .error (.malformed pos .tooDeep)) ↔ maxNesting < c := by
  constructor
  · rintro ⟨pos, hdeep⟩
    refine Nat.lt_of_not_le fun hc => ?_
    rw [parseTokens_of_derives h hc] at hdeep
    contradiction
  · exact parseTokens_of_derives_of_lt h

/-- **The language of the parser**: tokens are accepted with a tree just when they make up an
expression that means this tree, unless they are refused as nested too deeply; no tokens mean two trees;
and what makes up an expression is nested too deeply just when it costs more levels than there are. -/
theorem parseTokens_grammar (stop : Nat) (ps : List Placed) :
    (∀ e, parseTokens stop ps = .ok e ↔ Means (bare ps) e ∧
        ¬ ∃ pos, parseTokens stop ps = .error (.malformed pos .tooDeep)) ∧
      (∀ e f, Means (bare ps) e → Means (bare ps) f → e = f) ∧
      ∀ links cost e, Derives (.chain .or) links cost (bare ps) e →
        ((∃ pos, parseTokens stop ps = .error (.malformed pos .tooDeep)) ↔ maxNesting < cost) := by
  refine ⟨fun e => ?_, ?_, fun links cost e => tooDeep_iff_of_derives⟩
  · constructor
    · intro h
      obtain ⟨links, cost, hder, -⟩ := parseTokens_eq_ok_iff.mp h
      exact ⟨⟨links, cost, hder⟩, by simp [h]⟩
    · rintro ⟨⟨links, cost, hder⟩, hdeep⟩
      rw [tooDeep_iff_of_derives hder, Nat.not_lt] at hdeep
      exact parseTokens_eq_ok_iff.mpr ⟨links, cost, hder, hdeep⟩
  · rintro e f ⟨links, cost, he⟩ ⟨links', cost', hf⟩
    exact (hf.unique he).2.2

end ShopLens.Filter
