import ShopLens.Proofs.Filter.Spelling

/-!
# ShopLens.Proofs.Filter.Height

How high a tree the nesting limit lets through. A tree is as high as the negations, chains and methods
that evaluation recurses through on its longest way to a leaf (`Expr.height`).

The limit counts levels of the text, and one level of the text is up to three levels of the tree: a
chain of methods, a chain of `&&` and a chain of `||` start on the level where they stand, one after
another, and lean to the left, so that each of them stands on top of the one before. The `c`-th level
from the inside has room for chains of `c` links.

* `Derives.height_le_reach` — no phrase of cost `c` is higher than its form allows, which is `tallest c`
  at the most;
* `Derives.height_le_signs` — no tree is higher than the signs of levels in its text;
* `exists_reaches` — every height up to `tallest c` is reached at cost `c`, with as few signs;
* `parse_height_le_iff` — so these two are all that bounds the trees of accepted texts.
-/

namespace ShopLens.Filter

/-! ## heights and signs -/

/-- The number of negations, chains and methods on the longest way from the root to a leaf. -/
def Expr.height : Expr → Nat
  | literal _ => 0
  | field _ => 0
  | openCount _ => 0
  | count target => target.height + 1
  | search _ target needle => max target.height needle.height + 1
  | not operand => operand.height + 1
  | and left right => max left.height right.height + 1
  | or left right => max left.height right.height + 1
  | compare _ left right => max left.height right.height

theorem Expr.height_join (k : Connective) (e f : Expr) :
    (k.join e f).height = max e.height f.height + 1 := by
  cases k <;> rfl

/-- Whether a token is the sign of a negation, a chain or a method. -/
def Token.isSign : Token → Bool
  | sym .not => true
  | sym .and => true
  | sym .or => true
  | sym .dot => true
  | _ => false

/-- The number of signs of negations, chains and methods. -/
def signs (ts : List Token) : Nat := ts.countP Token.isSign

@[simp] theorem signs_nil : signs [] = 0 := rfl

@[simp] theorem signs_cons (t : Token) (ts : List Token) :
    signs (t :: ts) = signs ts + if t.isSign then 1 else 0 := by
  simp [signs, List.countP_cons]

@[simp] theorem signs_append (ts us : List Token) : signs (ts ++ us) = signs ts + signs us := by
  simp [signs]

theorem isSign_symbol (k : Connective) : (Token.sym k.symbol).isSign = true := by
  cases k <;> rfl

/-- The number of signs of negations, chains and methods in a text; none if it is not made of tokens. -/
def signsOf (text : String) : Nat :=
  match tokens text.toList with
  | .ok ps => signs (bare ps)
  | .error _ => 0

/-- No tree is higher than its signs. -/
theorem Derives.height_le_signs {form : Form} {n c : Nat} {ts : List Token} {e : Expr}
    (h : Derives form n c ts e) : e.height ≤ signs ts := by
  induction h with
  | ofAtom _ ih => exact ih
  | ofOperand _ ih => exact ih
  | ofComparison _ ih => exact ih
  | first _ ih => exact ih
  | parens _ ih => simpa [Token.isSign] using ih
  | count _ _ ih => simpa [Expr.height, Token.isSign] using ih
  | search _ _ _ ih iha =>
      simp [Expr.height, Token.isSign]
      omega
  | compare _ _ _ ih ih' =>
      simp [Expr.height, Token.isSign]
      omega
  | not _ ih => simpa [Expr.height, Token.isSign] using ih
  | link _ _ ih ih' =>
      simp [Expr.height_join, isSign_symbol]
      omega
  | _ => simp [Expr.height]

/-! ## the height of a level -/

/-- The height that trees of a cost may have. -/
def tallest : Nat → Nat
  | 0 => 0
  | c + 1 => tallest c + 3 * (c + 1)

theorem tallest_mono {c d : Nat} (h : c ≤ d) : tallest c ≤ tallest d := by
  induction h with
  | refl => exact Nat.le_refl _
  | step _ ih =>
      rw [tallest]
      omega

/-- The height that phrases of a form may have: whatever stands in parentheses costs less, and the
chains that may end the form come on top. -/
def Form.reach : Form → (links cost : Nat) → Nat
  | chain .or, n, c => n + 2 * c + tallest (c - 1)
  | chain .and, n, c => n + c + tallest (c - 1)
  | negation, _, c => c + tallest (c - 1)
  | comparison, _, c => c + tallest (c - 1)
  | operand, n, c => n + tallest (c - 1)
  | atom, _, c => tallest (c - 1)

example : tallest maxNesting = 98688 := by decide +kernel

/-- A whole disjunction fills one more level. -/
theorem reach_or_le {n c : Nat} (h : n ≤ c) : (Form.chain .or).reach n c ≤ tallest c := by
  cases c with
  | zero =>
      obtain rfl := Nat.le_zero.mp h
      exact Nat.le_refl _
  | succ c =>
      simp only [Form.reach, tallest, Nat.add_sub_cancel]
      omega

/-- No phrase is higher than its form, its links and its cost allow. -/
theorem Derives.height_le_reach {form : Form} {n c : Nat} {ts : List Token} {e : Expr}
    (h : Derives form n c ts e) : e.height ≤ form.reach n c := by
  induction h with
  | @parens n c ts e h ih => exact Nat.le_trans ih (reach_or_le h.links_le_cost)
  | ofAtom h ih => simpa [Form.reach] using ih
  | @count n c ts e name h hm ih =>
      have hmono : tallest (c - 1) ≤ tallest (max c (n + 1) - 1) := tallest_mono (by omega)
      simp only [Form.reach, Expr.height] at *
      omega
  | @search n m c d ts us e f name how h hm ha ih iha =>
      have hmono : tallest (c - 1) ≤ tallest (max c (n + 1 + d) - 1) := tallest_mono (by omega)
      have hneedle : f.height ≤ tallest (max c (n + 1 + d) - 1) :=
        calc f.height
          _ ≤ (Form.chain .or).reach m d := iha
          _ ≤ tallest d := reach_or_le ha.links_le_cost
          _ ≤ tallest (max c (n + 1 + d) - 1) := tallest_mono (by omega)
      simp only [Form.reach, Expr.height] at *
      omega
  | ofOperand h ih =>
      have := h.links_le_cost
      simp only [Form.reach] at *
      omega
  | @compare n m c d ts us e f op h h' ih ih' =>
      have := h.links_le_cost
      have := h'.links_le_cost
      have hleft : tallest (c - 1) ≤ tallest (max c d - 1) := tallest_mono (by omega)
      have hright : tallest (d - 1) ≤ tallest (max c d - 1) := tallest_mono (by omega)
      simp only [Form.reach, Expr.height] at *
      omega
  | ofComparison h ih => exact ih
  | @not n c ts e h ih =>
      have hmono : tallest (c - 1) ≤ tallest (c + 1 - 1) := tallest_mono (by omega)
      simp only [Form.reach, Expr.height] at *
      omega
  | @first k n c ts e h ih =>
      have := h.links_le_cost
      cases k <;> simp only [Form.reach, Connective.link] at * <;> omega
  | @link k n m c d ts us e f h h' ih ih' =>
      have := h'.links_le_cost
      have hleft : tallest (c - 1) ≤ tallest (max c (n + 1 + d) - 1) := tallest_mono (by omega)
      have hright : tallest (d - 1) ≤ tallest (max c (n + 1 + d) - 1) := tallest_mono (by omega)
      rw [Expr.height_join]
      cases k <;> simp only [Form.reach, Connective.link] at * <;> omega
  | _ => simp [Expr.height]

/-- The tree of an accepted text is no higher than the nesting limit and its signs allow. -/
theorem height_le_of_parse {text : String} {e : Expr} (h : parse text = .ok e) :
    e.height ≤ min (signsOf text) (tallest maxNesting) := by
  obtain ⟨ps, n, c, hps, hder, hc⟩ := derives_of_parse h
  have hsigns : e.height ≤ signsOf text := by simpa [signsOf, hps] using hder.height_le_signs
  have htall : e.height ≤ tallest maxNesting :=
    calc e.height
      _ ≤ (Form.chain .or).reach n c := hder.height_le_reach
      _ ≤ tallest c := reach_or_le hder.links_le_cost
      _ ≤ tallest maxNesting := tallest_mono hc
  omega

/-! ## heights that are reached -/

/-- Some phrase of symbols and names has as many signs as it is high. -/
def Reaches (form : Form) (n c height : Nat) : Prop :=
  ∃ ts e, Derives form n c ts e ∧ ts.all Token.isPlain = true ∧ signs ts = height ∧
    e.height = height

namespace Reaches

variable {form : Form} {n c height : Nat}

theorem field : Reaches .atom 0 0 0 :=
  ⟨[.ident "x"], .field "x", .field (by decide), by decide +kernel, rfl, rfl⟩

theorem parens (h : Reaches (.chain .or) n c height) : Reaches .atom 0 (c + 1) height := by
  obtain ⟨ts, e, hder, hp, hs, he⟩ := h
  exact ⟨_, e, hder.parens, by simpa using hp, by simpa [Token.isSign] using hs, he⟩

theorem operand (h : Reaches .atom n c height) : Reaches .operand 0 c height := by
  obtain ⟨ts, e, hder, h⟩ := h
  exact ⟨ts, e, hder.ofAtom, h⟩

theorem conjunction (h : Reaches .operand n c height) : Reaches (.chain .and) 0 c height := by
  obtain ⟨ts, e, hder, h⟩ := h
  exact ⟨ts, e, hder.ofOperand.ofComparison.conjunction, h⟩

theorem disjunction (h : Reaches (.chain .and) n c height) : Reaches (.chain .or) 0 c height := by
  obtain ⟨ts, e, hder, h⟩ := h
  exact ⟨ts, e, hder.disjunction, h⟩

/-- A link that is as simple as can be. -/
theorem simple (k : Connective) : Reaches k.link 0 0 0 := by
  cases k with
  | or => exact field.operand.conjunction
  | and =>
      obtain ⟨ts, e, hder, h⟩ := field
      exact ⟨ts, e, hder.ofAtom.ofOperand.ofComparison, h⟩

theorem count (h : Reaches .operand n c height) :
    Reaches .operand (n + 1) (max c (n + 1)) (height + 1) := by
  obtain ⟨ts, e, hder, hp, hs, he⟩ := h
  have hname : (Token.ident "Count").isPlain = true := by decide +kernel
  have hmethod : Method.ofName? "Count" = some .count := by decide
  exact ⟨_, .count e, hder.count hmethod, by simpa [hname] using hp,
    by simpa [Token.isSign] using hs, by simpa [Expr.height] using he⟩

theorem link {k : Connective} (h : Reaches (.chain k) n c height) :
    Reaches (.chain k) (n + 1) (max c (n + 1)) (height + 1) := by
  obtain ⟨ts, e, hder, hp, hs, he⟩ := h
  obtain ⟨us, f, hder', hp', hs', he'⟩ := simple k
  refine ⟨_, k.join e f, hder.link hder', ?_, ?_, ?_⟩
  · rw [List.all_append, List.all_cons, hp, hp', isPlain_sym]
    rfl
  · simp [hs, hs', isSign_symbol]
  · simp [Expr.height_join, he, he']

/-- What grows by links grows to as many as it costs. -/
theorem grow (hstep : ∀ n c height, Reaches form n c height →
      Reaches form (n + 1) (max c (n + 1)) (height + 1))
    (h : Reaches form 0 c height) {m : Nat} (hm : m ≤ c) : Reaches form m c (height + m) := by
  induction m with
  | zero => exact h
  | succ m ih =>
      have hnext := hstep _ _ _ (ih (by omega))
      rwa [Nat.max_eq_left hm] at hnext

end Reaches

/-- Every height up to the greatest one is reached. -/
theorem exists_reaches {c height : Nat} (h : height ≤ tallest c) :
    ∃ n, Reaches (.chain .or) n c height := by
  induction c generalizing height with
  | zero =>
      obtain rfl := Nat.le_zero.mp h
      exact ⟨0, Reaches.field.operand.conjunction.disjunction⟩
  | succ c ih =>
      rw [tallest] at h
      obtain ⟨base, methods, ands, ors, hbase, hm, ha, ho, rfl⟩ :
          ∃ base methods ands ors, base ≤ tallest c ∧ methods ≤ c + 1 ∧ ands ≤ c + 1 ∧
            ors ≤ c + 1 ∧ height = base + methods + ands + ors :=
        ⟨min height (tallest c), min (height - tallest c) (c + 1),
          min (height - tallest c - (c + 1)) (c + 1), height - tallest c - (c + 1) - (c + 1),
          by omega, by omega, by omega, by omega, by omega⟩
      obtain ⟨n, inside⟩ := ih hbase
      have hoperand : Reaches .operand methods (c + 1) (base + methods) :=
        .grow (fun _ _ _ => Reaches.count) inside.parens.operand hm
      have hand : Reaches (.chain .and) ands (c + 1) (base + methods + ands) :=
        .grow (fun _ _ _ => Reaches.link) hoperand.conjunction ha
      have hor : Reaches (.chain .or) ors (c + 1) (base + methods + ands + ors) :=
        .grow (fun _ _ _ => Reaches.link) hand.disjunction ho
      exact ⟨ors, hor⟩

/-- Negations in front of a phrase make it higher by their number. -/
theorem derives_nots {c : Nat} {ts : List Token} {e : Expr} (h : Derives .negation 0 c ts e)
    (n : Nat) : ∃ f, Derives .negation 0 (c + n) (List.replicate n (.sym .not) ++ ts) f ∧
      f.height = e.height + n := by
  induction n with
  | zero => exact ⟨e, h, rfl⟩
  | succ n ih =>
      obtain ⟨f, hder, hf⟩ := ih
      exact ⟨.not f, hder.not, by simp [Expr.height, hf, Nat.add_assoc]⟩

/-! ## what bounds the height -/

/-- **What bounds accepted trees**: the trees of texts with at most `n` signs of negations, chains and
methods keep to a bound just when `n` does, or else the height that the nesting limit leaves. So 256
levels of the tree are sure for texts with 256 signs and not for texts with one more, and 98688 levels
for all texts. -/
theorem parse_height_le_iff {n bound : Nat} :
    (∀ text e, parse text = .ok e → signsOf text ≤ n → e.height ≤ bound) ↔
      min n (tallest maxNesting) ≤ bound := by
  constructor
  · intro h
    obtain ⟨m, ts, e, hder, hp, hs, he⟩ := exists_reaches (Nat.min_le_right n (tallest maxNesting))
    obtain ⟨ps, hps, rfl⟩ := exists_tokens_spell hp
    have hsigns : signsOf (String.ofList (spell (bare ps))) = min n (tallest maxNesting) := by
      simp [signsOf, hps, hs]
    have hbound := h _ e (parse_spell hder (Nat.le_refl _) hp) (by omega)
    omega
  · intro h text e he hn
    have := height_le_of_parse he
    omega

/-- As many negations as the nesting limit allows, and a chain on top of them: the chain is one level
of the tree above the limit. -/
theorem parse_nots_or :
    ∃ e, parse (String.ofList (spell (List.replicate 256 (.sym .not) ++
      [.ident "true", .sym .or, .ident "true"]))) = .ok e ∧ maxNesting < e.height := by
  have htrue : Derives .negation 0 0 [.ident "true"] (.literal (.bool true)) :=
    (Derives.keyword rfl).ofAtom.ofOperand.ofComparison
  obtain ⟨f, hder, hf⟩ := derives_nots htrue 256
  have hor := hder.conjunction.disjunction.link (k := .or) htrue.conjunction
  rw [List.append_assoc] at hor
  exact ⟨_, parse_spell hor (by decide) (by decide +kernel), by
    simp [Expr.height_join, hf, maxNesting]⟩

end ShopLens.Filter
