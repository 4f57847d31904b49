import ShopLens.Proofs.Filter.Acceptance

/-!
# ShopLens.Proofs.Filter.Unambiguity

The grammar is unambiguous: tokens that make up a phrase have one tree, one cost and one number of
links (`Derives.unique`).

Two phrases of a form are compared on tokens that both of them start. Where neither of them can go on,
they are the same (`Determines.eq`). Chains and operands grow to the right while they lean to the left,
so a longer one starts with all shorter ones (`Derives.exists_shorter`), and two of them are compared
link by link: with as many links they are the same, and with fewer links one ends where the other one
goes on (`Determines`).
-/

namespace ShopLens.Filter

/-! ## ends -/

namespace Form

/-- No phrase of the form goes on with these tokens. -/
def Stops (form : Form) (rest : List Token) : Prop :=
  ∀ t ∈ rest.head?, form.goesOnWith t = false

/-- The tokens `ts` are `us` and more, with which a phrase of the form goes on and its parts do not. -/
def Extends (form : Form) (us ts : List Token) : Prop :=
  ∃ t more, ts = us ++ t :: more ∧ form.goesOnWith t = true ∧ form.part.goesOnWith t = false

variable {form : Form} {t : Token} {ts us rest : List Token}

theorem stops_nil : form.Stops [] := by
  simp [Stops]

theorem stops_cons : form.Stops (t :: rest) ↔ form.goesOnWith t = false := by
  simp [Stops]

/-- Where a form stops its parts stop. -/
theorem Stops.part (h : form.Stops rest) : form.part.Stops rest :=
  fun t ht => goesOnWith_part (h t ht)

/-- Where a comparison stops its operands stop. -/
theorem Stops.operand (h : comparison.Stops rest) : operand.Stops rest :=
  fun t ht => goesOnWith_operand (by simp) (h t ht)

theorem Extends.append (h : form.Extends us ts) (more : List Token) : form.Extends us (ts ++ more) := by
  obtain ⟨t, more', rfl, ht⟩ := h
  exact ⟨t, more' ++ more, List.append_assoc _ _ _, ht⟩

/-- Parts stop where the tokens go on. -/
theorem Extends.exists_rest (h : form.Extends us ts) (rest : List Token) :
    ∃ rest', ts ++ rest = us ++ rest' ∧ form.part.Stops rest' ∧ ¬ form.Stops rest' := by
  obtain ⟨t, more, rfl, ht, hpart⟩ := h
  refine ⟨t :: more ++ rest, List.append_assoc _ _ _, stops_cons.mpr hpart, fun hstops => ?_⟩
  rw [List.cons_append, stops_cons, ht] at hstops
  contradiction

end Form

/-! ## shorter phrases -/

theorem extends_dot (ts more : List Token) : Form.operand.Extends ts (ts ++ .sym .dot :: more) :=
  ⟨.sym .dot, more, rfl, rfl, rfl⟩

theorem extends_symbol (k : Connective) (ts more : List Token) :
    (Form.chain k).Extends ts (ts ++ .sym k.symbol :: more) :=
  ⟨.sym k.symbol, more, rfl, by cases k <;> rfl, by cases k <;> rfl⟩

/-- A phrase starts with one of any lower number of links. -/
theorem Derives.exists_shorter {form : Form} {n m c : Nat} {ts : List Token} {e : Expr}
    (h : Derives form n c ts e) (hm : m < n) :
    ∃ d us f, Derives form m d us f ∧ form.Extends us ts := by
  induction h with
  | @count n c ts e name h hname ih =>
      rcases Nat.lt_succ_iff_lt_or_eq.mp hm with hlt | rfl
      · obtain ⟨d, us, f, hus, hext⟩ := ih hlt
        exact ⟨d, us, f, hus, hext.append _⟩
      · exact ⟨c, ts, e, h, extends_dot _ _⟩
  | @search n k c d ts us e f name how h hname ha ih =>
      rcases Nat.lt_succ_iff_lt_or_eq.mp hm with hlt | rfl
      · obtain ⟨d, us, f, hus, hext⟩ := ih hlt
        exact ⟨d, us, f, hus, (hext.append _).append _⟩
      · exact ⟨c, ts, e, h, (extends_dot _ _).append _⟩
  | @link k n l c d ts us e f h h' ih =>
      rcases Nat.lt_succ_iff_lt_or_eq.mp hm with hlt | rfl
      · obtain ⟨d, us, f, hus, hext⟩ := ih hlt
        exact ⟨d, us, f, hus, hext.append _⟩
      · exact ⟨c, ts, e, h, extends_symbol k _ _⟩
  | _ => contradiction

/-! ## phrases that start the same tokens -/

/-- On tokens that start with this phrase, another phrase of the form that has as many links is the
same, and one that has fewer links ends where this one goes on. -/
def Determines (form : Form) (n c : Nat) (ts : List Token) (e : Expr) : Prop :=
  ∀ ⦃m d us f rest rest'⦄, Derives form m d us f → m ≤ n → ts ++ rest = us ++ rest' →
    form.part.Stops rest → form.part.Stops rest' →
      (m = n ∧ d = c ∧ us = ts ∧ f = e) ∨ (m < n ∧ form.Extends us ts)

namespace Determines

variable {form : Form} {n m c d : Nat} {ts us rest rest' : List Token} {e f : Expr}

/-- Where neither of them goes on, the phrases are the same. -/
theorem eq (H : Determines form n c ts e) (h : Derives form m d us f)
    (heq : ts ++ rest = us ++ rest') (hr : form.Stops rest) (hr' : form.Stops rest') :
    m = n ∧ d = c ∧ us = ts ∧ f = e := by
  rcases Nat.lt_or_ge n m with hlt | hle
  -- the longer phrase starts with one of `n` links, which is this one, and this one does not go on
  · obtain ⟨d', us', f', h', hext⟩ := h.exists_shorter hlt
    obtain ⟨rest'', hrest, hpart, hgoes⟩ := hext.exists_rest rest'
    rcases H h' (Nat.le_refl n) (heq.trans hrest) hr.part hpart with ⟨-, -, rfl, -⟩ | ⟨hn, -⟩
    · rw [List.append_cancel_left (heq.trans hrest)] at hr
      contradiction
    · exact absurd hn (Nat.lt_irrefl n)
  · rcases H h hle heq hr.part hr'.part with hsame | ⟨-, hext⟩
    · exact hsame
    · obtain ⟨rest'', hrest, -, hgoes⟩ := hext.exists_rest rest
      rw [List.append_cancel_left (heq.symm.trans hrest)] at hr'
      contradiction

/-- A phrase with no more links ends inside whatever goes on behind this one. -/
theorem extends_of_le {ts' : List Token} (H : Determines form n c ts e)
    (hext : form.Extends ts ts') (h : Derives form m d us f) (hm : m ≤ n)
    (heq : ts' ++ rest = us ++ rest') (hr' : form.part.Stops rest') : form.Extends us ts' := by
  obtain ⟨rest'', hrest, hpart, -⟩ := hext.exists_rest rest
  rcases H h hm (hrest.symm.trans heq) hpart hr' with ⟨-, -, rfl, -⟩ | ⟨-, hshort⟩
  · exact hext
  · obtain ⟨t, more, rfl, -⟩ := hext
    exact hshort.append (t :: more)

end Determines

/-! ## form by form -/

section Forms

variable {n m c d : Nat} {ts us : List Token} {e f : Expr}

/-! ### atoms -/

/-- A name that stands alone where no parenthesis follows. -/
theorem ne_lparen_of_stops {rest more : List Token} (h : Form.atom.Stops rest) :
    rest ≠ .sym .lparen :: more := by
  rintro rfl
  have := Form.stops_cons.mp h
  contradiction

theorem determines_keyword {name : String} {v : Value} (hv : keyword? name = some v) :
    Determines .atom 0 0 [.ident name] (.literal v) := by
  intro m d us f rest rest' h _ heq _ _
  cases h with
  | keyword hv' => simp_all
  | field hv' => simp_all
  | function hk =>
      have := keyword?_of_function? hk
      simp_all
  | _ => simp at heq

theorem determines_field {name : String} (hv : keyword? name = none) :
    Determines .atom 0 0 [.ident name] (.field name) := by
  intro m d us f rest rest' h _ heq hr _
  cases h with
  | keyword hv' => simp_all
  | field hv' => simp_all
  | function hk =>
      simp only [List.cons_append, List.cons.injEq, List.nil_append] at heq
      exact absurd heq.2 (ne_lparen_of_stops hr)
  | _ => simp at heq

theorem determines_function {name : String} {kind : AffixKind} (hk : function? name = some kind) :
    Determines .atom 0 0 [.ident name, .sym .lparen, .sym .rparen] (.openCount kind) := by
  intro m d us f rest rest' h _ heq _ hr'
  cases h with
  | keyword hv =>
      have := keyword?_of_function? hk
      simp_all
  | field hv =>
      simp only [List.cons_append, List.cons.injEq, List.nil_append] at heq
      exact absurd heq.2.symm (ne_lparen_of_stops hr')
  | function hk' => simp_all
  | _ => simp at heq

/-- A disjunction ends where its parenthesis is closed. -/
theorem stops_rparen (rest : List Token) : (Form.chain .or).Stops (.sym .rparen :: rest) :=
  Form.stops_cons.mpr rfl

theorem Determines.parens (H : Determines (.chain .or) n c ts e) :
    Determines .atom 0 (c + 1) (.sym .lparen :: ts ++ [.sym .rparen]) e := by
  intro m d us f rest rest' h _ heq _ _
  cases h with
  | parens h =>
      obtain ⟨-, rfl, rfl, rfl⟩ := H.eq h (by simpa using heq) (stops_rparen rest)
        (stops_rparen rest')
      exact .inl ⟨rfl, rfl, rfl, rfl⟩
  | _ => simp at heq

/-! ### operands -/

theorem Determines.ofAtom (H : Determines .atom n c ts e) : Determines .operand 0 c ts e := by
  intro m d us f rest rest' h hm heq hr hr'
  cases h with
  | ofAtom h =>
      obtain ⟨-, rfl, rfl, rfl⟩ := H.eq h heq hr hr'
      exact .inl ⟨rfl, rfl, rfl, rfl⟩
  | _ => contradiction

/-- Operands with as many methods, where the next method starts on both sides, are the same. -/
theorem Determines.eq_of_dot {more more' : List Token} (H : Determines .operand n c ts e)
    (h : Derives .operand n d us f)
    (heq : ts ++ .sym .dot :: more = us ++ .sym .dot :: more') :
    d = c ∧ us = ts ∧ f = e ∧ more = more' := by
  have hdot (more : List Token) : Form.operand.part.Stops (.sym .dot :: more) :=
    Form.stops_cons.mpr rfl
  rcases H h (Nat.le_refl n) heq (hdot more) (hdot more') with ⟨-, rfl, rfl, rfl⟩ | ⟨hn, -⟩
  · simpa using heq
  · exact absurd hn (Nat.lt_irrefl n)

theorem Determines.count {name : String} (H : Determines .operand n c ts e)
    (hname : Method.ofName? name = some .count) :
    Determines .operand (n + 1) (max c (n + 1))
      (ts ++ [.sym .dot, .ident name, .sym .lparen, .sym .rparen]) (.count e) := by
  intro m d us f rest rest' h hm heq hr hr'
  rcases Nat.lt_or_eq_of_le hm with hlt | rfl
  · exact .inr ⟨hlt, H.extends_of_le (extends_dot _ _) h (Nat.le_of_lt_succ hlt) heq hr'⟩
  · cases h with
    | count h hname' =>
        obtain ⟨rfl, rfl, rfl, hmore⟩ := H.eq_of_dot h (by simpa using heq)
        simp_all
    | search h hname' ha =>
        obtain ⟨-, -, -, hmore⟩ := H.eq_of_dot h (by simpa using heq)
        simp_all

theorem Determines.search {name : String} {how : Search} (H : Determines .operand n c ts e)
    (hname : Method.ofName? name = some (.search how)) (H' : Determines (.chain .or) m d us f) :
    Determines .operand (n + 1) (max c (n + 1 + d))
      (ts ++ .sym .dot :: .ident name :: .sym .lparen :: us ++ [.sym .rparen])
      (.search how e f) := by
  intro m' d' us' f' rest rest' h hm heq hr hr'
  rcases Nat.lt_or_eq_of_le hm with hlt | rfl
  · have hext := (extends_dot ts (.ident name :: .sym .lparen :: us)).append [.sym .rparen]
    exact .inr ⟨hlt, H.extends_of_le hext h (Nat.le_of_lt_succ hlt) heq hr'⟩
  · cases h with
    | count h hname' =>
        obtain ⟨-, -, -, hmore⟩ := H.eq_of_dot h (by simpa using heq)
        simp_all
    | search h hname' ha =>
        obtain ⟨rfl, rfl, rfl, hmore⟩ := H.eq_of_dot h (by simpa using heq)
        simp only [List.cons.injEq, true_and, Token.ident.injEq] at hmore
        obtain ⟨rfl, hargs⟩ := hmore
        obtain ⟨-, rfl, rfl, rfl⟩ := H'.eq ha hargs (stops_rparen rest) (stops_rparen rest')
        simp_all

/-! ### comparisons and negations -/

/-- An operand ends where a comparison operator follows. -/
theorem stops_cmp (op : Comparison) (rest : List Token) :
    Form.operand.Stops (.sym (.cmp op) :: rest) :=
  Form.stops_cons.mpr rfl

/-- No comparison operator follows a comparison. -/
theorem ne_cmp_of_stops {op : Comparison} {rest more : List Token} (h : Form.comparison.Stops rest) :
    rest ≠ .sym (.cmp op) :: more := by
  rintro rfl
  have := Form.stops_cons.mp h
  contradiction

theorem Determines.ofOperand (H : Determines .operand n c ts e) :
    Determines .comparison 0 c ts e := by
  intro m d us f rest rest' h _ heq hr hr'
  cases h with
  | ofOperand h =>
      obtain ⟨-, rfl, rfl, rfl⟩ := H.eq h heq hr.operand hr'.operand
      exact .inl ⟨rfl, rfl, rfl, rfl⟩
  | compare op h h' =>
      rw [List.append_assoc] at heq
      obtain ⟨-, -, rfl, -⟩ := H.eq h heq hr.operand (stops_cmp op _)
      exact absurd (List.append_cancel_left heq) (ne_cmp_of_stops hr)

theorem Determines.compare (H : Determines .operand n c ts e) (op : Comparison)
    (H' : Determines .operand m d us f) :
    Determines .comparison 0 (max c d) (ts ++ .sym (.cmp op) :: us) (.compare op e f) := by
  intro m' d' us' f' rest rest' h _ heq hr hr'
  rw [List.append_assoc] at heq
  cases h with
  | ofOperand h =>
      obtain ⟨-, -, rfl, -⟩ := H.eq h heq (stops_cmp op _) hr'.operand
      exact absurd (List.append_cancel_left heq).symm (ne_cmp_of_stops hr')
  | compare op' h h' =>
      rw [List.append_assoc] at heq
      obtain ⟨-, rfl, rfl, rfl⟩ := H.eq h heq (stops_cmp op _) (stops_cmp op' _)
      have hright := List.append_cancel_left heq
      simp only [List.cons_append, List.cons.injEq, Token.sym.injEq, Symbol.cmp.injEq] at hright
      obtain ⟨rfl, hright⟩ := hright
      obtain ⟨-, rfl, rfl, rfl⟩ := H'.eq h' hright hr.operand hr'.operand
      exact .inl ⟨rfl, rfl, rfl, rfl⟩

/-- A comparison starts with no `!`. -/
theorem Derives.ne_not {rest more : List Token} (h : Derives .comparison n c ts e) :
    ts ++ rest ≠ .sym .not :: more := by
  obtain ⟨t, us, rfl, -, hn⟩ := h.exists_head
  intro heq
  simpa using hn (List.cons.inj heq).1

theorem Determines.ofComparison (h : Derives .comparison n c ts e)
    (H : Determines .comparison n c ts e) : Determines .negation 0 c ts e := by
  intro m d us f rest rest' h' _ heq hr hr'
  cases h' with
  | ofComparison h' =>
      obtain ⟨-, rfl, rfl, rfl⟩ := H.eq h' heq hr hr'
      exact .inl ⟨rfl, rfl, rfl, rfl⟩
  | not h' => exact absurd heq h.ne_not

theorem Determines.not (H : Determines .negation n c ts e) :
    Determines .negation 0 (c + 1) (.sym .not :: ts) (.not e) := by
  intro m d us f rest rest' h _ heq hr hr'
  cases h with
  | ofComparison h => exact absurd heq.symm h.ne_not
  | not h =>
      obtain ⟨-, rfl, rfl, rfl⟩ := H.eq h (List.cons.inj heq).2 hr hr'
      exact .inl ⟨rfl, rfl, rfl, rfl⟩

/-! ### chains -/

theorem Determines.first {k : Connective} (H : Determines k.link n c ts e) :
    Determines (.chain k) 0 c ts e := by
  intro m d us f rest rest' h hm heq hr hr'
  cases h with
  | first h =>
      obtain ⟨-, rfl, rfl, rfl⟩ := H.eq h heq hr hr'
      exact .inl ⟨rfl, rfl, rfl, rfl⟩
  | link h h' => contradiction

theorem Determines.link {k : Connective} (H : Determines (.chain k) n c ts e)
    (H' : Determines k.link m d us f) :
    Determines (.chain k) (n + 1) (max c (n + 1 + d)) (ts ++ .sym k.symbol :: us) (k.join e f) := by
  intro m' d' us' f' rest rest' h hm heq hr hr'
  rcases Nat.lt_or_eq_of_le hm with hlt | rfl
  · exact .inr ⟨hlt, H.extends_of_le (extends_symbol k _ _) h (Nat.le_of_lt_succ hlt) heq hr'⟩
  · have hsymbol (more : List Token) : (Form.chain k).part.Stops (.sym k.symbol :: more) :=
      Form.stops_cons.mpr (by cases k <;> rfl)
    cases h with
    | link h h' =>
        rw [List.append_assoc, List.append_assoc] at heq
        rcases H h (Nat.le_refl n) heq (hsymbol _) (hsymbol _) with ⟨-, rfl, rfl, rfl⟩ | ⟨hn, -⟩
        · have hright := (List.cons.inj (List.append_cancel_left heq)).2
          obtain ⟨-, rfl, rfl, rfl⟩ := H'.eq h' hright hr hr'
          exact .inl ⟨rfl, rfl, rfl, rfl⟩
        · exact absurd hn (Nat.lt_irrefl n)

end Forms

/-! ## phrases are unique -/

theorem Derives.determines {form : Form} {n c : Nat} {ts : List Token} {e : Expr}
    (h : Derives form n c ts e) : Determines form n c ts e := by
  induction h with
  | int i =>
      intro m d us f rest rest' h _ heq _ _
      cases h <;> simp_all
  | float x =>
      intro m d us f rest rest' h _ heq _ _
      cases h <;> simp_all
  | str s =>
      intro m d us f rest rest' h _ heq _ _
      cases h <;> simp_all
  | keyword hv => exact determines_keyword hv
  | field hv => exact determines_field hv
  | function hk => exact determines_function hk
  | parens _ ih => exact ih.parens
  | ofAtom _ ih => exact ih.ofAtom
  | count _ hname ih => exact ih.count hname
  | search _ hname _ ih iha => exact ih.search hname iha
  | ofOperand _ ih => exact ih.ofOperand
  | compare op _ _ ih ih' => exact ih.compare op ih'
  | ofComparison h ih => exact Determines.ofComparison h ih
  | not _ ih => exact ih.not
  | first _ ih => exact ih.first
  | link _ _ ih ih' => exact ih.link ih'

/-- **The grammar is unambiguous**: tokens that make up a phrase of a form have one tree, one cost and
one number of links. -/
theorem Derives.unique {form : Form} {n m c d : Nat} {ts : List Token} {e f : Expr}
    (h : Derives form n c ts e) (h' : Derives form m d ts f) : m = n ∧ d = c ∧ f = e := by
  obtain ⟨hn, hc, -, he⟩ := h.determines.eq h' rfl Form.stops_nil Form.stops_nil
  exact ⟨hn, hc, he⟩

end ShopLens.Filter
