import ShopLens.Filter.Parser

/-!
# ShopLens.Proofs.Filter.Grammar

The grammar of the filter language, as a relation between tokens and trees that knows nothing of how
a text is read:

```
disjunction := conjunction ( "||" conjunction )*
conjunction := negation ( "&&" negation )*
negation    := "!" negation | comparison
comparison  := operand ( CMP operand )?
operand     := atom ( "." METHOD "(" disjunction? ")" )*
atom        := constant | FIELD | FUNCTION "(" ")" | "(" disjunction ")"
```

`Derives form links cost ts e` says that the tokens `ts` have the form and mean the tree `e`.
Chains lean to the left, and `links` is the length of the outermost one. `cost` is the number of
levels that a reader has to count: a `!` or a pair of parentheses is one level around what it holds,
and the `n`-th link of a chain stands `n` levels deep, whereas the first operand of a chain stands on
the level of the chain itself.

* `Derives.links_le_cost`, `Derives.cost_le_length` — a chain costs at least its links, and a phrase
  at most its tokens;
* `Derives.exists_head` — no phrase is empty, or starts with what cannot start one.
-/

namespace ShopLens.Filter

/-! ## forms -/

/-- The operators that make chains of operands. -/
inductive Connective where
  | or
  | and
deriving DecidableEq, Repr

namespace Connective

/-- The symbol between two operands. -/
def symbol : Connective → Symbol
  | or => .or
  | and => .and

/-- The tree of two operands. -/
def join : Connective → Expr → Expr → Expr
  | or => .or
  | and => .and

end Connective

/-- The forms of phrases. -/
inductive Form where
  | chain (k : Connective)
  | negation
  | comparison
  | operand
  | atom
deriving DecidableEq, Repr

/-- The form of the operands of a chain. -/
def Connective.link : Connective → Form
  | or => .chain .and
  | and => .negation

/-! ## the grammar -/

/-- Tokens `ts` have a form and mean the tree `e`; the outermost chain has `links` links, and reading
them takes `cost` levels. -/
inductive Derives : Form → (links cost : Nat) → List Token → Expr → Prop where
  | int (i : Int) : Derives .atom 0 0 [.int i] (.literal (.int i))
  | float (x : Float) : Derives .atom 0 0 [.float x] (.literal (.float x))
  | str (s : String) : Derives .atom 0 0 [.str s] (.literal (.str s))
  | keyword {name : String} {v : Value} (h : keyword? name = some v) :
      Derives .atom 0 0 [.ident name] (.literal v)
  | field {name : String} (h : keyword? name = none) :
      Derives .atom 0 0 [.ident name] (.field name)
  | function {name : String} {kind : AffixKind} (h : function? name = some kind) :
      Derives .atom 0 0 [.ident name, .sym .lparen, .sym .rparen] (.openCount kind)
  | parens {n c : Nat} {ts : List Token} {e : Expr} (h : Derives (.chain .or) n c ts e) :
      Derives .atom 0 (c + 1) (.sym .lparen :: ts ++ [.sym .rparen]) e
  | ofAtom {n c : Nat} {ts : List Token} {e : Expr} (h : Derives .atom n c ts e) :
      Derives .operand 0 c ts e
  | count {n c : Nat} {ts : List Token} {e : Expr} {name : String}
      (h : Derives .operand n c ts e) (hm : Method.ofName? name = some .count) :
      Derives .operand (n + 1) (max c (n + 1))
        (ts ++ [.sym .dot, .ident name, .sym .lparen, .sym .rparen]) (.count e)
  | search {n m c d : Nat} {ts us : List Token} {e f : Expr} {name : String} {how : Search}
      (h : Derives .operand n c ts e) (hm : Method.ofName? name = some (.search how))
      (ha : Derives (.chain .or) m d us f) :
      Derives .operand (n + 1) (max c (n + 1 + d))
        (ts ++ .sym .dot :: .ident name :: .sym .lparen :: us ++ [.sym .rparen]) (.search how e f)
  | ofOperand {n c : Nat} {ts : List Token} {e : Expr} (h : Derives .operand n c ts e) :
      Derives .comparison 0 c ts e
  | compare {n m c d : Nat} {ts us : List Token} {e f : Expr} (op : Comparison)
      (h : Derives .operand n c ts e) (h' : Derives .operand m d us f) :
      Derives .comparison 0 (max c d) (ts ++ .sym (.cmp op) :: us) (.compare op e f)
  | ofComparison {n c : Nat} {ts : List Token} {e : Expr} (h : Derives .comparison n c ts e) :
      Derives .negation 0 c ts e
  | not {n c : Nat} {ts : List Token} {e : Expr} (h : Derives .negation n c ts e) :
      Derives .negation 0 (c + 1) (.sym .not :: ts) (.not e)
  | first {k : Connective} {n c : Nat} {ts : List Token} {e : Expr} (h : Derives k.link n c ts e) :
      Derives (.chain k) 0 c ts e
  | link {k : Connective} {n m c d : Nat} {ts us : List Token} {e f : Expr}
      (h : Derives (.chain k) n c ts e) (h' : Derives k.link m d us f) :
      Derives (.chain k) (n + 1) (max c (n + 1 + d)) (ts ++ .sym k.symbol :: us) (k.join e f)

namespace Derives

variable {form : Form} {n c : Nat} {ts : List Token} {e : Expr}

/-- A negation is a conjunction. -/
theorem conjunction (h : Derives .negation n c ts e) : Derives (.chain .and) 0 c ts e :=
  .first (k := .and) h

/-- A conjunction is a disjunction. -/
theorem disjunction (h : Derives (.chain .and) n c ts e) : Derives (.chain .or) 0 c ts e :=
  .first (k := .or) h

/-- A chain costs at least its links. -/
theorem links_le_cost (h : Derives form n c ts e) : n ≤ c := by
  cases h <;> omega

/-- A phrase has at least as many tokens as it costs. -/
theorem cost_le_length (h : Derives form n c ts e) : c ≤ ts.length := by
  induction h with
  | count h _ ih =>
      have := h.links_le_cost
      simp only [List.length_append, List.length_cons, List.length_nil]
      omega
  | search h _ _ ih iha =>
      have := h.links_le_cost
      simp only [List.length_append, List.length_cons, List.length_nil]
      omega
  | link h _ ih ih' =>
      have := h.links_le_cost
      simp only [List.length_append, List.length_cons]
      omega
  | _ => grind

/-- A phrase has a first token. It closes no parenthesis, and is `!` only in a negation or a chain. -/
theorem exists_head (h : Derives form n c ts e) :
    ∃ t us, ts = t :: us ∧ t ≠ .sym .rparen ∧
      (t = .sym .not → form = .negation ∨ ∃ k, form = .chain k) := by
  induction h with
  | count _ _ ih =>
      obtain ⟨t, us, rfl, ht⟩ := ih
      exact ⟨t, _, rfl, ht⟩
  | search _ _ _ ih =>
      obtain ⟨t, us, rfl, ht⟩ := ih
      exact ⟨t, _, rfl, ht⟩
  | compare _ _ _ ih =>
      obtain ⟨t, us, rfl, ht, hn⟩ := ih
      exact ⟨t, _, rfl, ht, fun h => by simpa using hn h⟩
  | link _ _ ih =>
      obtain ⟨t, us, rfl, ht⟩ := ih
      exact ⟨t, _, rfl, ht⟩
  | ofAtom _ ih =>
      obtain ⟨t, us, hts, ht, hn⟩ := ih
      exact ⟨t, us, hts, ht, fun h => by simpa using hn h⟩
  | ofOperand _ ih =>
      obtain ⟨t, us, hts, ht, hn⟩ := ih
      exact ⟨t, us, hts, ht, fun h => by simpa using hn h⟩
  | ofComparison _ ih =>
      obtain ⟨t, us, hts, ht, -⟩ := ih
      exact ⟨t, us, hts, ht, fun _ => .inl rfl⟩
  | first _ ih =>
      obtain ⟨t, us, hts, ht, -⟩ := ih
      exact ⟨t, us, hts, ht, fun _ => .inr ⟨_, rfl⟩⟩
  | _ => exact ⟨_, _, rfl, by simp⟩

end Derives

/-! ## names -/

/-- A function is no constant. -/
theorem keyword?_of_function? {name : String} {kind : AffixKind} (h : function? name = some kind) :
    keyword? name = none := by
  unfold function? at h
  split at h
  · next hn => subst hn; decide
  · split at h
    · next hn => subst hn; decide
    · contradiction

end ShopLens.Filter
