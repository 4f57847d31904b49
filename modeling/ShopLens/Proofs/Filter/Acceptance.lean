import ShopLens.Proofs.Filter.Reading

/-!
# ShopLens.Proofs.Filter.Acceptance

The other direction: the parser accepts every phrase whose cost keeps to the nesting limit
(`exprWithin_of_derives`, `parseTokens_of_derives`), and gives the tree that the phrase means.

A phrase can be read only where it ends: the token behind it must not go on with the same form. A
chain, or an operand, may still be growing when it is looked at, so the induction says that reading it
leaves the loop over its links where the phrase ends (`outcome_of_derives`).
-/

namespace ShopLens.Filter

/-! ## outcomes -/

/-- What a parser returns, without the bound on the tokens left. -/
def outcome {n : Nat} (r : Except Halt (Parsed Expr n)) : Except Halt (Expr × List Placed) :=
  r.map fun p => (p.value, p.rest)

@[simp] theorem outcome_ok {n : Nat} (p : Parsed Expr n) :
    outcome (.ok p) = .ok (p.value, p.rest) := rfl

@[simp] theorem outcome_error {n : Nat} (h : Halt) :
    outcome (.error h : Except Halt (Parsed Expr n)) = .error h := rfl

theorem outcome_eq_ok {n : Nat} {r : Except Halt (Parsed Expr n)} {e : Expr} {rest : List Placed}
    (h : outcome r = .ok (e, rest)) : ∃ p, r = .ok p ∧ p.value = e ∧ p.rest = rest := by
  cases r with
  | error => contradiction
  | ok p =>
      simp only [outcome_ok, Except.ok.injEq, Prod.mk.injEq] at h
      exact ⟨p, rfl, h.1, h.2⟩

section Levels

variable (inner : Parser Expr) (stop : Nat)

/-- The parser of a form. -/
def Form.parser : Form → Parser Expr
  | chain .or => disjunction inner stop
  | chain .and => conjunction inner stop
  | negation => Filter.negation inner stop
  | comparison => Filter.comparison inner stop
  | operand => Filter.operand inner stop
  | atom => Filter.atom inner stop

theorem parser_chain (k : Connective) :
    (Form.chain k).parser inner stop =
      chain stop k.symbol k.join (k.link.parser inner stop) := by
  cases k <;> rfl

/-- What a parser does behind a phrase that means `e`: chains and operands may grow. -/
def Form.goOn (depth : Nat) (e : Expr) (rest : List Placed) :
    Form → Except Halt (Expr × List Placed)
  | chain k =>
    outcome (linksFrom stop k.symbol k.join (k.link.parser inner stop) depth e rest)
  | operand => outcome (methodsFrom inner stop depth e rest)
  | _ => .ok (e, rest)

variable {inner stop}

/-! ## ends -/

/-- Whether a token behind a phrase belongs to a longer phrase of the form. -/
def Form.goesOnWith (form : Form) : Token → Bool
  | .sym .lparen => true
  | .sym .dot => form ≠ .atom
  | .sym (.cmp _) => form ≠ .atom && form ≠ .operand
  | .sym .and => form = .chain .and || form = .chain .or
  | .sym .or => form = .chain .or
  | _ => false

/-- No phrase of the form goes on here. -/
def Form.EndsAt (form : Form) (rest : List Placed) : Prop :=
  ∀ t ∈ rest.head?, form.goesOnWith t.token = false

/-- The form whose end lets a form grow: that of the operands for chains, atoms for operands. -/
def Form.part : Form → Form
  | chain k => k.link
  | operand => atom
  | form => form

theorem endsAt_nil (form : Form) : form.EndsAt [] := by
  simp [Form.EndsAt]

theorem endsAt_cons {form : Form} {t : Token} {pos : Nat} {rest : List Placed} :
    form.EndsAt (⟨t, pos⟩ :: rest) ↔ form.goesOnWith t = false := by
  simp [Form.EndsAt]

/-- What does not belong to a longer phrase belongs to no longer part of one. -/
theorem goesOnWith_part {form : Form} {t : Token} (h : form.goesOnWith t = false) :
    form.part.goesOnWith t = false := by
  unfold Form.goesOnWith at *
  rcases form with (_ | _) | _ | _ | _ | _ <;> revert h <;> split <;>
    simp [Form.part, Connective.link]

/-- A method belongs to a longer phrase of every form other than an atom. -/
theorem goesOnWith_operand {form : Form} {t : Token} (hf : form ≠ .atom)
    (h : form.goesOnWith t = false) : Form.operand.goesOnWith t = false := by
  unfold Form.goesOnWith at *
  revert h
  split <;> simp [hf]

/-- Where a form ends its parts end. -/
theorem endsAt_part {form : Form} {rest : List Placed} (h : form.EndsAt rest) :
    form.part.EndsAt rest :=
  fun t ht => goesOnWith_part (h t ht)

/-- Where a form other than an atom ends no method follows. -/
theorem endsAt_operand {form : Form} {rest : List Placed} (hf : form ≠ .atom)
    (h : form.EndsAt rest) : Form.operand.EndsAt rest :=
  fun t ht => goesOnWith_operand hf (h t ht)

theorem endsAt_negation_iff {rest : List Placed} :
    Form.negation.EndsAt rest ↔ Form.comparison.EndsAt rest := by
  simp [Form.EndsAt, Form.goesOnWith]

/-- A disjunction ends where its parenthesis is closed. -/
theorem endsAt_rparen {pos : Nat} {rest : List Placed} :
    (Form.chain .or).EndsAt (⟨.sym .rparen, pos⟩ :: rest) :=
  endsAt_cons.mpr rfl

/-- An atom ends where a method follows. -/
theorem endsAt_dot {pos : Nat} {rest : List Placed} :
    Form.operand.part.EndsAt (⟨.sym .dot, pos⟩ :: rest) :=
  endsAt_cons.mpr rfl

/-- An operand ends where a comparison operator follows. -/
theorem endsAt_cmp {op : Comparison} {pos : Nat} {rest : List Placed} :
    Form.operand.EndsAt (⟨.sym (.cmp op), pos⟩ :: rest) :=
  endsAt_cons.mpr rfl

/-- An operand of a chain ends where the next one follows. -/
theorem endsAt_symbol {k : Connective} {pos : Nat} {rest : List Placed} :
    (Form.chain k).part.EndsAt (⟨.sym k.symbol, pos⟩ :: rest) :=
  endsAt_cons.mpr (by cases k <;> rfl)

theorem outcome_linksFrom_stop {k : Connective} {link : Parser Expr} {depth : Nat} {left : Expr}
    {rest : List Placed} (h : (Form.chain k).EndsAt rest) :
    outcome (linksFrom stop k.symbol k.join link depth left rest) = .ok (left, rest) := by
  unfold linksFrom
  cases rest with
  | nil => rfl
  | cons t r =>
      have ht : t.token ≠ .sym k.symbol := by
        intro heq
        have := h t (by simp)
        rw [heq] at this
        cases k <;> simp [Connective.symbol, Form.goesOnWith] at this
      simp [ht]

theorem outcome_methodsFrom_stop {depth : Nat} {target : Expr} {rest : List Placed}
    (h : Form.operand.EndsAt rest) :
    outcome (methodsFrom inner stop depth target rest) = .ok (target, rest) := by
  unfold methodsFrom
  split
  · next r =>
      rw [endsAt_cons] at h
      contradiction
  · rfl

/-- Where a form ends nothing goes on. -/
theorem goOn_of_endsAt {form : Form} {depth : Nat} {e : Expr} {rest : List Placed}
    (h : form.EndsAt rest) : form.goOn inner stop depth e rest = .ok (e, rest) := by
  cases form with
  | chain k => exact outcome_linksFrom_stop h
  | operand => exact outcome_methodsFrom_stop h
  | negation => rfl
  | comparison => rfl
  | atom => rfl

/-! ## steps of the parser -/

theorem outcome_chain {op : Symbol} {join : Expr → Expr → Expr} {link : Parser Expr} {depth : Nat}
    {ts rest : List Placed} {e : Expr} (h : outcome (link depth ts) = .ok (e, rest)) :
    outcome (chain stop op join link depth ts) =
      outcome (linksFrom stop op join link depth e rest) := by
  obtain ⟨p, hp, rfl, rfl⟩ := outcome_eq_ok h
  unfold chain
  rw [hp]
  cases hl : linksFrom stop op join link depth p.value p.rest with
  | error => simp [hl]
  | ok q => simp [hl]

theorem outcome_linksFrom_cons {op : Symbol} {join : Expr → Expr → Expr} {link : Parser Expr}
    {depth pos : Nat} {left f : Expr} {r rest : List Placed} (hd : depth < maxNesting)
    (h : outcome (link (depth + 1) r) = .ok (f, rest)) :
    outcome (linksFrom stop op join link depth left (⟨.sym op, pos⟩ :: r)) =
      outcome (linksFrom stop op join link (depth + 1) (join left f) rest) := by
  obtain ⟨p, hp, rfl, rfl⟩ := outcome_eq_ok h
  rw [linksFrom]
  simp only [↓reduceIte, hd, hp]
  cases linksFrom stop op join link (depth + 1) (join left p.value) p.rest with
  | error => simp
  | ok q => simp

theorem outcome_operand {depth : Nat} {ts rest : List Placed} {e : Expr}
    (h : outcome (atom inner stop depth ts) = .ok (e, rest)) :
    outcome (operand inner stop depth ts) = outcome (methodsFrom inner stop depth e rest) := by
  obtain ⟨p, hp, rfl, rfl⟩ := outcome_eq_ok h
  unfold operand
  rw [hp]
  cases hm : methodsFrom inner stop depth p.value p.rest with
  | error => simp [hm]
  | ok q => simp [hm]

theorem outcome_methodsFrom_cons {depth pos : Nat} {target e : Expr} {r rest : List Placed}
    (hd : depth < maxNesting)
    (h : outcome (method inner stop (depth + 1) target r) = .ok (e, rest)) :
    outcome (methodsFrom inner stop depth target (⟨.sym .dot, pos⟩ :: r)) =
      outcome (methodsFrom inner stop (depth + 1) e rest) := by
  obtain ⟨p, hp, rfl, rfl⟩ := outcome_eq_ok h
  rw [methodsFrom]
  simp only [hd, ↓reduceIte, hp]
  cases methodsFrom inner stop (depth + 1) p.value p.rest with
  | error => simp
  | ok q => simp

theorem outcome_method_count {depth pos pos₁ pos₂ : Nat} {name : String} {target : Expr}
    {rest : List Placed} (hm : Method.ofName? name = some .count) :
    outcome (method inner stop depth target
      (⟨.ident name, pos⟩ :: ⟨.sym .lparen, pos₁⟩ :: ⟨.sym .rparen, pos₂⟩ :: rest)) =
      .ok (.count target, rest) := by
  simp [method, hm, arguments, Method.call?]

theorem outcome_method_search {depth pos pos₁ pos₂ : Nat} {name : String} {how : Search}
    {target f : Expr} {r rest : List Placed} (hm : Method.ofName? name = some (.search how))
    (hr : ∀ pos' r', r ≠ ⟨.sym .rparen, pos'⟩ :: r')
    (h : outcome (inner depth r) = .ok (f, ⟨.sym .rparen, pos₂⟩ :: rest)) :
    outcome (method inner stop depth target
      (⟨.ident name, pos⟩ :: ⟨.sym .lparen, pos₁⟩ :: r)) = .ok (.search how target f, rest) := by
  obtain ⟨q, hq, hv, hrest⟩ : ∃ q, arguments inner stop depth r = .ok q ∧ q.value = [f] ∧
      q.rest = rest := by
    obtain ⟨p, hp, rfl, hrest⟩ := outcome_eq_ok h
    unfold arguments
    split
    · next pos' r' => exact absurd rfl (hr pos' r')
    · unfold argumentsFrom
      rw [hp]
      dsimp only
      split
      · next pos' r' hr' =>
          obtain ⟨-, rfl⟩ := List.cons.inj (hr'.symm.trans hrest)
          exact ⟨_, rfl, rfl, rfl⟩
      · next hr' => simp [hr'] at hrest
      · next hne _ => exact absurd hrest (hne _ _)
  simp [method, hm, hq, hv, hrest, Method.call?]

theorem outcome_comparison_stop {depth : Nat} {ts rest : List Placed} {e : Expr}
    (h : outcome (operand inner stop depth ts) = .ok (e, rest)) (hr : Form.comparison.EndsAt rest) :
    outcome (comparison inner stop depth ts) = .ok (e, rest) := by
  obtain ⟨p, hp, rfl, rfl⟩ := outcome_eq_ok h
  unfold comparison
  rw [hp]
  dsimp only
  split
  · next op pos r hrest =>
      rw [hrest, endsAt_cons] at hr
      contradiction
  · rfl

theorem outcome_comparison_cons {depth pos : Nat} {op : Comparison} {ts r rest : List Placed}
    {e f : Expr} (h : outcome (operand inner stop depth ts) = .ok (e, ⟨.sym (.cmp op), pos⟩ :: r))
    (h' : outcome (operand inner stop depth r) = .ok (f, rest)) :
    outcome (comparison inner stop depth ts) = .ok (.compare op e f, rest) := by
  obtain ⟨p, hp, rfl, hr⟩ := outcome_eq_ok h
  obtain ⟨q, hq, rfl, rfl⟩ := outcome_eq_ok h'
  unfold comparison
  rw [hp]
  dsimp only
  split
  · next op' pos' r' hrest =>
      obtain ⟨⟨⟨rfl⟩, rfl⟩, rfl⟩ : _ := by simpa using hrest.symm.trans hr
      simp [hq]
  · next hne => exact absurd hr (hne _ _ _)

theorem outcome_negation_cons {depth pos : Nat} {r rest : List Placed} {e : Expr}
    (hd : depth < maxNesting)
    (h : outcome (negation inner stop (depth + 1) r) = .ok (e, rest)) :
    outcome (negation inner stop depth (⟨.sym .not, pos⟩ :: r)) = .ok (.not e, rest) := by
  obtain ⟨p, hp, rfl, rfl⟩ := outcome_eq_ok h
  rw [negation]
  simp [hd, hp]

theorem negation_of_ne {depth : Nat} {ts : List Placed}
    (h : ∀ pos r, ts ≠ ⟨.sym .not, pos⟩ :: r) :
    negation inner stop depth ts = comparison inner stop depth ts := by
  unfold negation
  split
  · next pos r => exact absurd rfl (h pos r)
  · rfl

/-! ## atoms -/

theorem outcome_atom_keyword {depth pos : Nat} {name : String} {v : Value} {rest : List Placed}
    (h : keyword? name = some v) :
    outcome (atom inner stop depth (⟨.ident name, pos⟩ :: rest)) = .ok (.literal v, rest) := by
  simp only [atom, named]
  split
  · next w hw =>
      obtain rfl := Option.some.inj (h.symm.trans hw)
      rfl
  · next hw => simp [h] at hw

theorem outcome_atom_field {depth pos : Nat} {name : String} {rest : List Placed}
    (h : keyword? name = none) (hr : Form.atom.EndsAt rest) :
    outcome (atom inner stop depth (⟨.ident name, pos⟩ :: rest)) = .ok (.field name, rest) := by
  simp only [atom, named]
  split
  · next w hw => simp [h] at hw
  · split
    · rw [endsAt_cons] at hr
      contradiction
    · rfl

theorem outcome_atom_function {depth pos pos₁ pos₂ : Nat} {name : String} {kind : AffixKind}
    {rest : List Placed} (h : function? name = some kind) :
    outcome (atom inner stop depth
      (⟨.ident name, pos⟩ :: ⟨.sym .lparen, pos₁⟩ :: ⟨.sym .rparen, pos₂⟩ :: rest)) =
      .ok (.openCount kind, rest) := by
  simp only [atom, named]
  split
  · next w hw => simp [keyword?_of_function? h] at hw
  · simp [h, arguments]

theorem outcome_atom_parens {depth pos pos₁ : Nat} {e : Expr} {r rest : List Placed}
    (hd : depth < maxNesting)
    (h : outcome (inner (depth + 1) r) = .ok (e, ⟨.sym .rparen, pos₁⟩ :: rest)) :
    outcome (atom inner stop depth (⟨.sym .lparen, pos⟩ :: r)) = .ok (e, rest) := by
  obtain ⟨p, hp, rfl, hrest⟩ := outcome_eq_ok h
  simp only [atom, enclosed, hd, ↓reduceIte, hp]
  split
  · next hf =>
      split at hf
      · contradiction
      · next hne => exact absurd hrest (hne _ _)
  · next q hq =>
      split at hq
      · next pos' r' hr' =>
          obtain ⟨-, rfl⟩ := List.cons.inj (hr'.symm.trans hrest)
          obtain rfl := Except.ok.inj hq
          rfl
      · contradiction

end Levels

/-! ## phrases -/

theorem bare_eq_cons {ps : List Placed} {t : Token} {ts : List Token} (h : bare ps = t :: ts) :
    ∃ pos qs, ps = ⟨t, pos⟩ :: qs ∧ bare qs = ts := by
  obtain ⟨⟨t', pos⟩, qs, rfl, rfl, rfl⟩ := List.map_eq_cons_iff.mp h
  exact ⟨pos, qs, rfl, rfl⟩

theorem bare_eq_singleton {ps : List Placed} {t : Token} (h : bare ps = [t]) :
    ∃ pos, ps = [⟨t, pos⟩] := by
  obtain ⟨pos, qs, rfl, hqs⟩ := bare_eq_cons h
  obtain rfl := List.map_eq_nil_iff.mp hqs
  exact ⟨pos, rfl⟩

theorem bare_eq_append {ps : List Placed} {ts us : List Token} (h : bare ps = ts ++ us) :
    ∃ qs rs, ps = qs ++ rs ∧ bare qs = ts ∧ bare rs = us :=
  List.map_eq_append_iff.mp h

/-- Tokens on both sides of an operator. -/
theorem bare_eq_infix {ps : List Placed} {t : Token} {ts us : List Token}
    (h : bare ps = ts ++ t :: us) :
    ∃ qs pos rs, ps = qs ++ ⟨t, pos⟩ :: rs ∧ bare qs = ts ∧ bare rs = us := by
  obtain ⟨qs, rs, rfl, hqs, hrs⟩ := bare_eq_append h
  obtain ⟨pos, rs', rfl, hrs'⟩ := bare_eq_cons hrs
  exact ⟨qs, pos, rs', rfl, hqs, hrs'⟩

/-- Tokens in parentheses. -/
theorem bare_eq_enclosed {ps : List Placed} {ts : List Token}
    (h : bare ps = .sym .lparen :: ts ++ [.sym .rparen]) :
    ∃ pos qs pos', ps = ⟨.sym .lparen, pos⟩ :: qs ++ [⟨.sym .rparen, pos'⟩] ∧ bare qs = ts := by
  obtain ⟨pos, rs, rfl, hrs⟩ := bare_eq_cons h
  obtain ⟨qs, us, rfl, hqs, hus⟩ := bare_eq_append hrs
  obtain ⟨pos', rfl⟩ := bare_eq_singleton hus
  exact ⟨pos, qs, pos', rfl, hqs⟩

/-- Tokens with a method behind them that has no arguments. -/
theorem bare_eq_count {ps : List Placed} {ts : List Token} {name : String}
    (h : bare ps = ts ++ [.sym .dot, .ident name, .sym .lparen, .sym .rparen]) :
    ∃ qs pos pos₁ pos₂ pos₃, ps = qs ++ [⟨.sym .dot, pos⟩, ⟨.ident name, pos₁⟩,
      ⟨.sym .lparen, pos₂⟩, ⟨.sym .rparen, pos₃⟩] ∧ bare qs = ts := by
  obtain ⟨qs, pos, rs, rfl, hqs, hrs⟩ := bare_eq_infix h
  obtain ⟨pos₁, rs₁, rfl, hrs₁⟩ := bare_eq_cons hrs
  obtain ⟨pos₂, rs₂, rfl, hrs₂⟩ := bare_eq_cons hrs₁
  obtain ⟨pos₃, rfl⟩ := bare_eq_singleton hrs₂
  exact ⟨qs, pos, pos₁, pos₂, pos₃, rfl, hqs⟩

/-- Tokens with a method behind them, and its arguments. -/
theorem bare_eq_search {ps : List Placed} {ts us : List Token} {name : String}
    (h : bare ps = ts ++ .sym .dot :: .ident name :: .sym .lparen :: us ++ [.sym .rparen]) :
    ∃ qs pos pos₁ pos₂ as pos₃, ps = qs ++ ⟨.sym .dot, pos⟩ :: ⟨.ident name, pos₁⟩ ::
      ⟨.sym .lparen, pos₂⟩ :: (as ++ [⟨.sym .rparen, pos₃⟩]) ∧ bare qs = ts ∧ bare as = us := by
  simp only [List.append_assoc, List.cons_append] at h
  obtain ⟨qs, pos, rs, rfl, hqs, hrs⟩ := bare_eq_infix h
  obtain ⟨pos₁, rs₁, rfl, hrs₁⟩ := bare_eq_cons hrs
  obtain ⟨pos₂, as, pos₃, rfl, has⟩ := bare_eq_enclosed hrs₁
  exact ⟨qs, pos, pos₁, pos₂, as, pos₃, rfl, hqs, has⟩

/-- A phrase, as it stands in a text, closes no parenthesis first. -/
theorem Derives.ne_rparen_cons {form : Form} {n c : Nat} {ts : List Token} {e : Expr}
    (h : Derives form n c ts e) {ps : List Placed} (hps : bare ps = ts) (rest : List Placed)
    (pos : Nat) (r : List Placed) : ps ++ rest ≠ ⟨.sym .rparen, pos⟩ :: r := by
  obtain ⟨t, us, rfl, ht, -⟩ := h.exists_head
  obtain ⟨pos', qs, rfl, -⟩ := bare_eq_cons hps
  simp [ht]

/-- A comparison is read as a negation without `!`. -/
theorem negation_of_derives {inner : Parser Expr} {stop depth n c : Nat} {ts : List Token} {e : Expr}
    (h : Derives .comparison n c ts e) {ps : List Placed} (hps : bare ps = ts) (rest : List Placed) :
    negation inner stop depth (ps ++ rest) = comparison inner stop depth (ps ++ rest) := by
  obtain ⟨t, us, rfl, -, hn⟩ := h.exists_head
  obtain ⟨pos', qs, rfl, -⟩ := bare_eq_cons hps
  have ht : t ≠ .sym .not := fun ht => by simpa using hn ht
  exact negation_of_ne (by simp [ht])

/-- **Acceptance, phrase by phrase**: a phrase with enough levels left is read, and the parser then
goes on behind it. -/
theorem outcome_of_derives {form : Form} {n c : Nat} {ts : List Token} {e : Expr}
    (h : Derives form n c ts e) (stop depth budget : Nat) {ps rest : List Placed}
    (hps : bare ps = ts) (hd : depth + c ≤ maxNesting) (hb : c ≤ budget)
    (hr : form.part.EndsAt rest) :
    outcome (form.parser (exprWithin stop budget) stop depth (ps ++ rest)) =
      form.goOn (exprWithin stop budget) stop (depth + n) e rest := by
  induction h generalizing depth budget ps rest with
  | int i =>
      obtain ⟨pos, rfl⟩ := bare_eq_singleton hps
      simp [Form.parser, Form.goOn, atom]
  | float x =>
      obtain ⟨pos, rfl⟩ := bare_eq_singleton hps
      simp [Form.parser, Form.goOn, atom]
  | str s =>
      obtain ⟨pos, rfl⟩ := bare_eq_singleton hps
      simp [Form.parser, Form.goOn, atom]
  | keyword hv =>
      obtain ⟨pos, rfl⟩ := bare_eq_singleton hps
      exact outcome_atom_keyword hv
  | field hv =>
      obtain ⟨pos, rfl⟩ := bare_eq_singleton hps
      exact outcome_atom_field hv hr
  | function hk =>
      obtain ⟨pos, qs, rfl, hqs⟩ := bare_eq_cons hps
      obtain ⟨pos₁, rs, rfl, hrs⟩ := bare_eq_cons hqs
      obtain ⟨pos₂, rfl⟩ := bare_eq_singleton hrs
      show outcome (atom (exprWithin stop budget) stop depth _) = _
      exact outcome_atom_function hk
  | parens h ih =>
      obtain ⟨pos, qs, pos₁, rfl, hqs⟩ := bare_eq_enclosed hps
      obtain ⟨budget, rfl⟩ : ∃ b, budget = b + 1 := ⟨budget - 1, by omega⟩
      have hin : outcome (exprWithin stop (budget + 1) (depth + 1)
          (qs ++ ⟨.sym .rparen, pos₁⟩ :: rest)) = .ok (_, ⟨.sym .rparen, pos₁⟩ :: rest) :=
        (ih (depth + 1) budget hqs (by omega) (by omega) (endsAt_part endsAt_rparen)).trans
          (goOn_of_endsAt endsAt_rparen)
      rw [List.append_assoc]
      exact outcome_atom_parens (by omega) hin
  | ofAtom h ih => exact outcome_operand (ih depth budget hps hd hb hr)
  | @count n c ts e name h hm ih =>
      obtain ⟨qs, pos, pos₁, pos₂, pos₃, rfl, hqs⟩ := bare_eq_count hps
      rw [List.append_assoc, List.cons_append, ih depth _ hqs (by omega) (by omega) endsAt_dot]
      exact outcome_methodsFrom_cons (by omega) (outcome_method_count hm)
  | @search n m c d ts us e f name how h hm ha ih iha =>
      obtain ⟨qs, pos, pos₁, pos₂, as, pos₃, rfl, hqs, has⟩ := bare_eq_search hps
      obtain ⟨budget, rfl⟩ : ∃ b, budget = b + 1 := ⟨budget - 1, by omega⟩
      have hin : outcome (exprWithin stop (budget + 1) (depth + n + 1)
          (as ++ ⟨.sym .rparen, pos₃⟩ :: rest)) = .ok (f, ⟨.sym .rparen, pos₃⟩ :: rest) :=
        (iha (depth + n + 1) budget has (by omega) (by omega) (endsAt_part endsAt_rparen)).trans
          (goOn_of_endsAt endsAt_rparen)
      rw [List.append_assoc, List.cons_append, ih depth _ hqs (by omega) (by omega) endsAt_dot]
      simp only [List.cons_append, List.append_assoc, List.nil_append]
      exact outcome_methodsFrom_cons (by omega)
        (outcome_method_search hm (ha.ne_rparen_cons has _) hin)
  | ofOperand h ih =>
      have hend : Form.operand.EndsAt rest := endsAt_operand (by decide) hr
      have hin := ih depth budget hps hd hb (endsAt_part hend)
      rw [goOn_of_endsAt hend] at hin
      exact outcome_comparison_stop hin hr
  | @compare n m c d ts us e f op h h' ih ih' =>
      obtain ⟨qs, pos, rs, rfl, hqs, hrs⟩ := bare_eq_infix hps
      have hend : Form.operand.EndsAt rest := endsAt_operand (by decide) hr
      have hend' : Form.operand.EndsAt (⟨.sym (.cmp op), pos⟩ :: (rs ++ rest)) := endsAt_cmp
      have hleft := ih depth budget hqs (by omega) (by omega) (endsAt_part hend')
      have hright := ih' depth budget hrs (by omega) (by omega) (endsAt_part hend)
      rw [goOn_of_endsAt hend'] at hleft
      rw [goOn_of_endsAt hend] at hright
      rw [List.append_assoc]
      exact outcome_comparison_cons hleft hright
  | ofComparison h ih =>
      have hin := ih depth budget hps hd hb (endsAt_negation_iff.mp hr)
      show outcome (negation _ stop depth _) = _
      rw [negation_of_derives h hps rest]
      exact hin
  | not h ih =>
      obtain ⟨pos, qs, rfl, hqs⟩ := bare_eq_cons hps
      have hin := ih (depth + 1) budget hqs (by omega) (by omega) hr
      exact outcome_negation_cons (by omega) hin
  | @first k n c ts e h ih =>
      have hend : k.link.EndsAt rest := hr
      have hin := ih depth budget hps hd hb (endsAt_part hend)
      rw [goOn_of_endsAt hend] at hin
      rw [parser_chain]
      exact outcome_chain hin
  | @link k n m c d ts us e f h h' ih ih' =>
      obtain ⟨qs, pos, rs, rfl, hqs, hrs⟩ := bare_eq_infix hps
      have hend : k.link.EndsAt rest := hr
      have hright := ih' (depth + n + 1) budget hrs (by omega) (by omega) (endsAt_part hend)
      rw [goOn_of_endsAt hend] at hright
      rw [List.append_assoc, List.cons_append, ih depth _ hqs (by omega) (by omega) endsAt_symbol]
      exact outcome_linksFrom_cons (by omega) hright

/-- **Acceptance**: a disjunction that ends, with enough levels left, is read. -/
theorem exprWithin_of_derives {n c : Nat} {ts : List Token} {e : Expr}
    (h : Derives (.chain .or) n c ts e) (stop depth budget : Nat) {ps rest : List Placed}
    (hps : bare ps = ts) (hd : depth + c ≤ maxNesting) (hb : c < budget)
    (hr : (Form.chain .or).EndsAt rest) :
    outcome (exprWithin stop budget depth (ps ++ rest)) = .ok (e, rest) := by
  obtain ⟨budget, rfl⟩ : ∃ b, budget = b + 1 := ⟨budget - 1, by omega⟩
  exact (outcome_of_derives h stop depth budget hps hd (by omega) (endsAt_part hr)).trans
    (goOn_of_endsAt hr)

/-- The tokens of a disjunction with enough levels are accepted. -/
theorem parseTokens_of_derives {n c : Nat} {e : Expr} {stop : Nat} {ps : List Placed}
    (h : Derives (.chain .or) n c (bare ps) e) (hc : c ≤ maxNesting) :
    parseTokens stop ps = .ok e := by
  have hlen : c ≤ ps.length := by simpa [bare] using h.cost_le_length
  have hread := exprWithin_of_derives h stop 0 (ps.length + 1) rfl (by omega) (by omega)
    (endsAt_nil _)
  rw [List.append_nil] at hread
  obtain ⟨p, hp, rfl, hrest⟩ := outcome_eq_ok hread
  have hne : ps ≠ [] := by
    rintro rfl
    obtain ⟨t, us, hts, -⟩ := h.exists_head
    simp at hts
  simp [parseTokens, hne, hp, complete, hrest]

end ShopLens.Filter
