import ShopLens.Proofs.Filter.Language
import ShopLens.Proofs.Filter.Lexemes

/-!
# ShopLens.Proofs.Filter.Verdict

The verdict of an expression on a listed item is its truth value, and there is none if it fails. Only
the verdict of a rule counts: `&&` and `||` know no more of their operands (`verdict_and`,
`verdict_or`), and the verdict of a disjunction does not depend on how it leans (`Derives.graft`).

What a text is compiled to depends on its tokens alone: the cost of the expression that they make up
decides whether it is accepted (`compile_of_lexes`, `tooDeep_of_lexes`).
-/

namespace ShopLens.Filter

/-! ## verdicts -/

/-- The truth value of an expression for a listed item; none if it fails or has no truth value. -/
def Expr.verdict (limits : AffixLimits) (l : Listing) (e : Expr) : Option Bool :=
  (e.eval limits l >>= truth).toOption

variable {limits : AffixLimits} {l : Listing}

theorem toOption_bind {ε α β : Type} (x : Except ε α) (f : α → Except ε β) :
    (x >>= f).toOption = x.toOption.bind fun a => (f a).toOption := by
  cases x <;> rfl

theorem truth_bool (b : Bool) : truth (.bool b) = pure b := rfl

/-- A predicate answers with the verdict. -/
theorem toOption_predicate (e : Expr) : (e.predicate limits l).toOption = e.verdict limits l := by
  unfold Expr.predicate Expr.test Expr.verdict
  cases e.eval limits l with
  | error => rfl
  | ok v => cases v <;> rfl

/-- The right side of `||` counts where the left one does not hold. -/
theorem verdict_or (e f : Expr) :
    (Expr.or e f).verdict limits l =
      (e.verdict limits l).bind fun b => if b then some true else f.verdict limits l := by
  have heval : ((Expr.or e f).eval limits l >>= truth) =
      (e.eval limits l >>= truth) >>= fun b => if b then .ok true else f.eval limits l >>= truth := by
    simp only [Expr.eval, bind_assoc]
    refine bind_congr fun u => bind_congr fun b => ?_
    cases b with
    | true => rfl
    | false => simp [truth_bool]
  unfold Expr.verdict
  rw [heval, toOption_bind]
  congr 1
  funext b
  cases b <;> rfl

/-- The right side of `&&` counts where the left one holds. -/
theorem verdict_and (e f : Expr) :
    (Expr.and e f).verdict limits l =
      (e.verdict limits l).bind fun b => if b then f.verdict limits l else some false := by
  have heval : ((Expr.and e f).eval limits l >>= truth) =
      (e.eval limits l >>= truth) >>= fun b => if b then f.eval limits l >>= truth else .ok false := by
    simp only [Expr.eval, bind_assoc]
    refine bind_congr fun u => bind_congr fun b => ?_
    cases b with
    | false => rfl
    | true => simp [truth_bool]
  unfold Expr.verdict
  rw [heval, toOption_bind]
  congr 1
  funext b
  cases b <;> rfl

/-! ## disjunctions side by side -/

/-- Two disjunctions with `||` between them are one, with the verdict of the first one and, where that
does not hold, of the second one. -/
theorem Derives.graft {n m c d : Nat} {ts us : List Token} {e f : Expr}
    (h : Derives (.chain .or) n c ts e) (h' : Derives (.chain .or) m d us f) :
    ∃ links cost g, Derives (.chain .or) links cost (ts ++ .sym .or :: us) g ∧
      ∀ limits l, g.verdict limits l = (Expr.or e f).verdict limits l := by
  generalize hform : Form.chain .or = form at h'
  induction h' with
  | first h' =>
      obtain rfl := Form.chain.inj hform
      exact ⟨_, _, _, h.link (k := .or) h', fun _ _ => rfl⟩
  | @link k m₁ m₂ c₁ c₂ us₁ us₂ f₁ f₂ h₁ h₂ ih =>
      obtain rfl := Form.chain.inj hform
      obtain ⟨links, cost, g, hg, hverdict⟩ := ih rfl
      refine ⟨_, _, _, by simpa [Connective.symbol] using hg.link (k := .or) h₂, fun limits l => ?_⟩
      simp only [Connective.join, verdict_or, hverdict]
      cases e.verdict limits l with
      | none => rfl
      | some b => cases b <;> rfl
  | _ => contradiction

/-! ## texts -/

theorem compile_eq_ok_iff {text : String} {p : Predicate} :
    compile text = .ok p ↔ ∃ e, parse text = .ok e ∧ e.predicate = p := by
  unfold compile
  cases parse text with
  | error => simp [Except.map]
  | ok e => simp [Except.map]

/-- A text is accepted if its tokens make up an expression with enough levels. -/
theorem compile_of_lexes {text : String} {n c : Nat} {ts : List Token} {e : Expr}
    (h : Lexes text.toList ts) (hder : Derives (.chain .or) n c ts e) (hc : c ≤ maxNesting) :
    compile text = .ok e.predicate := by
  obtain ⟨ps, hps, rfl⟩ := h
  refine compile_eq_ok_iff.mpr ⟨e, ?_, rfl⟩
  rw [parse, hps]
  exact parseTokens_of_derives hder hc

/-- With too few levels it is refused as nested too deeply. -/
theorem tooDeep_of_lexes {text : String} {n c : Nat} {ts : List Token} {e : Expr}
    (h : Lexes text.toList ts) (hder : Derives (.chain .or) n c ts e) (hc : maxNesting < c) :
    ∃ pos, compile text = .error (.malformed pos .tooDeep) := by
  obtain ⟨ps, hps, rfl⟩ := h
  obtain ⟨pos, hparse⟩ : ∃ pos, parseTokens (byteLength text.toList) ps =
      .error (.malformed pos .tooDeep) := parseTokens_of_derives_of_lt hder hc
  exact ⟨pos, by simp [compile, parse, hps, hparse, Except.map]⟩

/-- What is accepted is an expression with enough levels. -/
theorem derives_of_compile {text : String} {p : Predicate} (h : compile text = .ok p) :
    ∃ ts n c e, Lexes text.toList ts ∧ Derives (.chain .or) n c ts e ∧ c ≤ maxNesting ∧
      e.predicate = p := by
  obtain ⟨e, he, hp⟩ := compile_eq_ok_iff.mp h
  obtain ⟨ps, n, c, hps, hder, hc⟩ := derives_of_parse he
  exact ⟨bare ps, n, c, e, ⟨ps, hps, rfl⟩, hder, hc, hp⟩

end ShopLens.Filter
