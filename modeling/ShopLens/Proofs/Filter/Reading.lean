import ShopLens.Filter.Eval
import ShopLens.Proofs.Filter.Grammar

/-!
# ShopLens.Proofs.Filter.Reading

Whatever the parser accepts is a phrase of the grammar (`exprWithin_reads`, `derives_of_parse`): what
it has read off the front of the tokens derives the tree that it returns, at a cost that keeps to the
nesting limit.

Each level of the parser passes this on from the parser of what stands in parentheses; the loops
over links and methods carry along what was read before them.
-/

namespace ShopLens.Filter

/-- The tokens without their offsets. -/
def bare (ts : List Placed) : List Token := ts.map Placed.token

@[simp] theorem bare_nil : bare [] = [] := rfl

@[simp] theorem bare_cons (t : Token) (pos : Nat) (ts : List Placed) :
    bare (⟨t, pos⟩ :: ts) = t :: bare ts := rfl

@[simp] theorem value_widen {α : Type} {m n : Nat} (p : Parsed α m) (h : m ≤ n) :
    (p.widen h).value = p.value := rfl

@[simp] theorem rest_widen {α : Type} {m n : Nat} (p : Parsed α m) (h : m ≤ n) :
    (p.widen h).rest = p.rest := rfl

/-- The tokens `before`, with those between `ts` and `rest` behind them, have a form and mean `e`;
reading them where `depth` levels are open keeps to the nesting limit. -/
def Phrase (form : Form) (depth : Nat) (before : List Token) (ts rest : List Placed) (e : Expr) :
    Prop :=
  ∃ n c read, bare ts = read ++ bare rest ∧ Derives form n c (before ++ read) e ∧
    depth + c ≤ maxNesting

/-- A parser reads nothing but phrases of a form. -/
def Reads (form : Form) (p : Parser Expr) : Prop :=
  ∀ depth ts q, depth ≤ maxNesting → p depth ts = .ok q → Phrase form depth [] ts q.rest q.value

section Levels

variable {inner : Parser Expr} {stop : Nat}

/-! ## arguments -/

theorem value_ne_nil_of_argumentsFrom {depth : Nat} {ts : List Placed}
    {q : Parsed (List Expr) ts.length} (h : argumentsFrom inner stop depth ts = .ok q) :
    q.value ≠ [] := by
  unfold argumentsFrom at h
  repeat' split at h
  all_goals simp only [fault, Except.ok.injEq, reduceCtorEq] at h
  · simp [← h]
  · simp [← h]

/-- No argument was read: the parenthesis is closed at once. -/
theorem arguments_nil {depth : Nat} {ts : List Placed} {q : Parsed (List Expr) ts.length}
    (h : arguments inner stop depth ts = .ok q) (hv : q.value = []) :
    bare ts = .sym .rparen :: bare q.rest := by
  unfold arguments at h
  split at h
  · obtain rfl := Except.ok.inj h
    rfl
  · exact absurd hv (value_ne_nil_of_argumentsFrom h)

/-- One argument was read: a disjunction, and the parenthesis that closes the list. -/
theorem arguments_singleton (hi : Reads (.chain .or) inner) {depth : Nat} {ts : List Placed}
    {q : Parsed (List Expr) ts.length} {e : Expr} (hd : depth ≤ maxNesting)
    (h : arguments inner stop depth ts = .ok q) (hv : q.value = [e]) :
    ∃ n c read, bare ts = read ++ .sym .rparen :: bare q.rest ∧
      Derives (.chain .or) n c read e ∧ depth + c ≤ maxNesting := by
  unfold arguments at h
  split at h
  · obtain rfl := Except.ok.inj h
    simp at hv
  · unfold argumentsFrom at h
    split at h
    · contradiction
    · next p hp =>
        obtain ⟨n, c, read, hr, hder, hc⟩ := hi _ _ _ hd hp
        split at h
        · next pos r hrest =>
            obtain rfl := Except.ok.inj h
            obtain rfl : p.value = e := by simpa using hv
            exact ⟨n, c, read, by simpa [hrest] using hr, hder, hc⟩
        · split at h
          · contradiction
          · next q' hq' =>
              obtain rfl := Except.ok.inj h
              have hq := value_ne_nil_of_argumentsFrom hq'
              simp at hv
              exact absurd hv.2 hq
        · contradiction

/-! ## operands -/

theorem named_reads {depth : Nat} {name : String} {ts : List Placed}
    {q : Parsed Expr (ts.length + 1)} (hd : depth ≤ maxNesting)
    (h : named inner stop depth name ts = .ok q) :
    Phrase .atom depth [.ident name] ts q.rest q.value := by
  unfold named at h
  split at h
  · next v hv =>
      obtain rfl := Except.ok.inj h
      exact ⟨0, 0, [], rfl, .keyword hv, hd⟩
  · next hv =>
      split at h
      · split at h
        · contradiction
        · next kind hk =>
            split at h
            · contradiction
            · next p hp =>
                split at h
                · next hempty =>
                    obtain rfl := Except.ok.inj h
                    have hr := arguments_nil hp (List.isEmpty_iff.mp hempty)
                    exact ⟨0, 0, [.sym .lparen, .sym .rparen], by simp [hr], .function hk, hd⟩
                · contradiction
      · obtain rfl := Except.ok.inj h
        exact ⟨0, 0, [], rfl, .field hv, hd⟩

theorem enclosed_reads (hi : Reads (.chain .or) inner) {pos depth : Nat} {ts : List Placed}
    {q : Parsed Expr ts.length} (h : enclosed inner stop pos depth ts = .ok q) :
    Phrase .atom depth [.sym .lparen] ts q.rest q.value := by
  unfold enclosed at h
  split at h
  · next hd =>
      split at h
      · contradiction
      · next p hp =>
          obtain ⟨n, c, read, hr, hder, hc⟩ := hi _ _ _ hd hp
          split at h
          · next r hrest =>
              obtain rfl := Except.ok.inj h
              exact ⟨0, c + 1, read ++ [.sym .rparen], by simp [hr, hrest], hder.parens, by omega⟩
          · contradiction
  · contradiction

theorem atom_reads (hi : Reads (.chain .or) inner) : Reads .atom (atom inner stop) := by
  intro depth ts q hd h
  unfold atom at h
  split at h
  · contradiction
  · next i _ r =>
      obtain rfl := Except.ok.inj h
      exact ⟨0, 0, [.int i], rfl, .int i, hd⟩
  · next x _ r =>
      obtain rfl := Except.ok.inj h
      exact ⟨0, 0, [.float x], rfl, .float x, hd⟩
  · next s _ r =>
      obtain rfl := Except.ok.inj h
      exact ⟨0, 0, [.str s], rfl, .str s, hd⟩
  · next name _ r =>
      obtain ⟨n, c, read, hr, hder, hc⟩ := named_reads hd h
      exact ⟨n, c, .ident name :: read, by simp [hr], hder, hc⟩
  · split at h
    · contradiction
    · next p hp =>
        obtain rfl := Except.ok.inj h
        obtain ⟨n, c, read, hr, hder, hc⟩ := enclosed_reads hi hp
        exact ⟨n, c, .sym .lparen :: read, by simp [hr], hder, hc⟩
  · contradiction

/-- A method makes the operand in front of its dot, read as `before`, into a longer one. -/
theorem method_reads (hi : Reads (.chain .or) inner) {depth n c : Nat} {target : Expr}
    {before : List Token} {ts : List Placed} {q : Parsed Expr ts.length}
    (ht : Derives .operand n c before target) (hc : depth + c ≤ maxNesting)
    (hd : depth + n < maxNesting)
    (h : method inner stop (depth + n + 1) target ts = .ok q) :
    ∃ c' read, bare ts = read ++ bare q.rest ∧
      Derives .operand (n + 1) c' (before ++ .sym .dot :: read) q.value ∧
      depth + c' ≤ maxNesting := by
  unfold method at h
  split at h
  · next name _ r =>
      split at h
      · contradiction
      · next m hm =>
          split at h
          · next r' =>
              split at h
              · contradiction
              · next p hp =>
                  split at h
                  · next e he =>
                      obtain rfl := Except.ok.inj h
                      unfold Method.call? at he
                      split at he
                      · next hv =>
                          obtain rfl := Option.some.inj he
                          have hr := arguments_nil hp hv
                          exact ⟨_, [.ident name, .sym .lparen, .sym .rparen], by simp [hr],
                            ht.count hm, by omega⟩
                      · next how _ needle hv =>
                          obtain rfl := Option.some.inj he
                          obtain ⟨m', d, read, hr, hder, hd'⟩ := arguments_singleton hi hd hp hv
                          exact ⟨_, .ident name :: .sym .lparen :: read ++ [.sym .rparen],
                            by simp [hr], by simpa using ht.search hm hder, by omega⟩
                      · contradiction
                  · contradiction
          · contradiction
  · contradiction

/-- Methods make the operand in front of them, read as `before`, into a longer one. -/
theorem methodsFrom_reads (hi : Reads (.chain .or) inner) {depth n c : Nat} {target : Expr}
    {before : List Token} {ts : List Placed} {q : Parsed Expr (ts.length + 1)}
    (ht : Derives .operand n c before target) (hc : depth + c ≤ maxNesting)
    (h : methodsFrom inner stop (depth + n) target ts = .ok q) :
    Phrase .operand depth before ts q.rest q.value := by
  generalize hdn : depth + n = deep at h
  fun_induction methodsFrom inner stop deep target ts generalizing n c before with
  | case1 => contradiction
  | case2 => contradiction
  | case3 deep target pos r hd p hp q' hq' ih =>
      subst hdn
      obtain rfl := Except.ok.inj h
      obtain ⟨c₁, read₁, hr₁, hder₁, hc₁⟩ := method_reads hi ht hc hd hp
      obtain ⟨n₂, c₂, read₂, hr₂, hder₂, hc₂⟩ := ih hder₁ hc₁ (by omega) hq'
      exact ⟨n₂, c₂, .sym .dot :: read₁ ++ read₂, by simp [hr₁, hr₂], by simpa using hder₂, hc₂⟩
  | case4 => contradiction
  | case5 =>
      obtain rfl := Except.ok.inj h
      exact ⟨n, c, [], rfl, by simpa using ht, hc⟩

theorem operand_reads (hi : Reads (.chain .or) inner) : Reads .operand (operand inner stop) := by
  intro depth ts q hd h
  unfold operand at h
  split at h
  · contradiction
  · next p hp =>
      obtain ⟨n, c, read, hr, hder, hc⟩ := atom_reads hi _ _ _ hd hp
      split at h
      · contradiction
      · next q' hq' =>
          obtain rfl := Except.ok.inj h
          obtain ⟨n', c', read', hr', hder', hc'⟩ :=
            methodsFrom_reads hi hder.ofAtom hc (by simpa using hq')
          exact ⟨n', c', read ++ read', by simp [hr, hr'], hder', hc'⟩

/-! ## operators -/

theorem comparison_reads (hi : Reads (.chain .or) inner) :
    Reads .comparison (comparison inner stop) := by
  intro depth ts q hd h
  unfold comparison at h
  split at h
  · contradiction
  · next p hp =>
      obtain ⟨n, c, read, hr, hder, hc⟩ := operand_reads hi _ _ _ hd hp
      split at h
      · next op _ r hrest =>
          split at h
          · contradiction
          · next q' hq' =>
              obtain rfl := Except.ok.inj h
              obtain ⟨n', c', read', hr', hder', hc'⟩ := operand_reads hi _ _ _ hd hq'
              exact ⟨0, max c c', read ++ .sym (.cmp op) :: read', by simp [hr, hrest, hr'],
                hder.compare op hder', by omega⟩
      · obtain rfl := Except.ok.inj h
        exact ⟨0, c, read, hr, hder.ofOperand, hc⟩

theorem negation_reads (hi : Reads (.chain .or) inner) : Reads .negation (negation inner stop) := by
  intro depth ts q hd h
  fun_induction negation inner stop depth ts with
  | case1 => contradiction
  | case2 depth pos r hlt p hp ih =>
      obtain rfl := Except.ok.inj h
      obtain ⟨n, c, read, hr, hder, hc⟩ := ih p hlt hp
      exact ⟨0, c + 1, .sym .not :: read, by simp [hr], hder.not, by omega⟩
  | case3 => contradiction
  | case4 =>
      obtain ⟨n, c, read, hr, hder, hc⟩ := comparison_reads hi _ _ _ hd h
      exact ⟨0, c, read, hr, hder.ofComparison, hc⟩

/-- Links make the chain in front of them, read as `before`, into a longer one. -/
theorem linksFrom_reads {k : Connective} {link : Parser Expr} (hl : Reads k.link link)
    {depth n c : Nat} {left : Expr} {before : List Token} {ts : List Placed}
    {q : Parsed Expr (ts.length + 1)} (hb : Derives (.chain k) n c before left)
    (hc : depth + c ≤ maxNesting)
    (h : linksFrom stop k.symbol k.join link (depth + n) left ts = .ok q) :
    Phrase (.chain k) depth before ts q.rest q.value := by
  generalize hdn : depth + n = deep at h
  fun_induction linksFrom stop k.symbol k.join link deep left ts generalizing n c before with
  | case1 =>
      obtain rfl := Except.ok.inj h
      exact ⟨n, c, [], rfl, by simpa using hb, hc⟩
  | case2 => contradiction
  | case3 => contradiction
  | case4 deep left t r ht hd p hp q' hq' ih =>
      obtain ⟨_, pos⟩ := t
      subst hdn ht
      obtain rfl := Except.ok.inj h
      obtain ⟨n₁, c₁, read₁, hr₁, hder₁, hc₁⟩ := hl _ _ _ hd hp
      obtain ⟨n₂, c₂, read₂, hr₂, hder₂, hc₂⟩ :=
        ih (hb.link hder₁) (by omega) (by omega) hq'
      exact ⟨n₂, c₂, .sym k.symbol :: read₁ ++ read₂, by simp [hr₁, hr₂], by simpa using hder₂,
        hc₂⟩
  | case5 => contradiction
  | case6 =>
      obtain rfl := Except.ok.inj h
      exact ⟨n, c, [], rfl, by simpa using hb, hc⟩

theorem chain_reads {k : Connective} {link : Parser Expr} (hl : Reads k.link link) :
    Reads (.chain k) (chain stop k.symbol k.join link) := by
  intro depth ts q hd h
  unfold chain at h
  split at h
  · contradiction
  · next p hp =>
      obtain ⟨n, c, read, hr, hder, hc⟩ := hl _ _ _ hd hp
      split at h
      · contradiction
      · next q' hq' =>
          obtain rfl := Except.ok.inj h
          obtain ⟨n', c', read', hr', hder', hc'⟩ :=
            linksFrom_reads hl hder.first hc (by simpa using hq')
          exact ⟨n', c', read ++ read', by simp [hr, hr'], hder', hc'⟩

/-- Whatever is accepted, under any budget, is a disjunction that keeps to the nesting limit. -/
theorem exprWithin_reads (budget : Nat) : Reads (.chain .or) (exprWithin stop budget) := by
  induction budget with
  | zero =>
      intro depth ts q hd h
      contradiction
  | succ budget ih => exact chain_reads (k := .or) (chain_reads (k := .and) (negation_reads ih))

end Levels

/-! ## whole texts -/

@[simp] theorem mapError_ok {α ε δ : Type} (f : ε → δ) (a : α) :
    (Except.ok a : Except ε α).mapError f = .ok a := rfl

@[simp] theorem mapError_error {α ε δ : Type} (f : ε → δ) (e : ε) :
    (Except.error e : Except ε α).mapError f = .error (f e) := rfl

/-- Tokens that are accepted make up a disjunction. -/
theorem derives_of_parseTokens {stop : Nat} {ts : List Placed} {e : Expr}
    (h : parseTokens stop ts = .ok e) :
    ∃ n c, Derives (.chain .or) n c (bare ts) e ∧ c ≤ maxNesting := by
  unfold parseTokens at h
  split at h
  · contradiction
  · cases hr : exprWithin stop (ts.length + 1) 0 ts with
    | error => simp [hr, complete] at h
    | ok p =>
        simp only [hr, complete] at h
        split at h
        · next hempty =>
            obtain rfl := Except.ok.inj h
            obtain ⟨n, c, read, hread, hder, hc⟩ :=
              exprWithin_reads _ _ _ _ (Nat.zero_le _) hr
            rw [List.isEmpty_iff.mp hempty, bare_nil, List.append_nil] at hread
            exact ⟨n, c, by simpa [hread] using hder, by omega⟩
        · contradiction

/-- **Soundness**: the tokens of a text that is accepted make up a disjunction, which the tree means
and which keeps to the nesting limit. -/
theorem derives_of_parse {text : String} {e : Expr} (h : parse text = .ok e) :
    ∃ ps n c, tokens text.toList = .ok ps ∧ Derives (.chain .or) n c (bare ps) e ∧
      c ≤ maxNesting := by
  unfold parse at h
  cases ht : tokens text.toList with
  | error => simp [ht] at h
  | ok ps =>
      simp only [ht] at h
      obtain ⟨n, c, hder⟩ := derives_of_parseTokens h
      exact ⟨ps, n, c, rfl, hder⟩

end ShopLens.Filter
