import ShopLens.Proofs.Filter.Budget
import ShopLens.Proofs.Filter.Spelling

/-!
# ShopLens.Proofs.Filter.Recursion

How many disjunctions are open at one time while a text is read. The nesting limit pays for those in
parentheses and those that methods take, but the arguments of a function stand on the level of the
function: functions take none, and the parser reads what stands there before it says so.

* `parseWithin` reads a text with a budget of open disjunctions;
* `parseWithin_of_calls` — a budget of one more than the nesting limit, and one more for each function
  that is given an argument, is enough;
* `exhausted_of_nested` — no smaller budget is enough for functions in the arguments of each other
  inside as many parentheses as the limit allows;
* `parseWithin_eq_iff` — so the limit bounds the recursion just where no function is given an argument.
-/

namespace ShopLens.Filter

/-! ## functions with arguments -/

/-- Whether the tokens start with a function that is given an argument. -/
def startsCall : List Token → Bool
  | .ident name :: .sym .lparen :: ts =>
    (function? name).isSome && ts.head? != some (.sym .rparen)
  | _ => false

/-- The number of functions that are given an argument. -/
def calls : List Token → Nat
  | [] => 0
  | t :: ts => calls ts + if startsCall (t :: ts) then 1 else 0

/-- The number of functions that are given an argument in a text; none if it is not made of tokens. -/
def callsOf (text : String) : Nat :=
  match tokens text.toList with
  | .ok ps => calls (bare ps)
  | .error _ => 0

theorem calls_le_cons (t : Token) (ts : List Token) : calls ts ≤ calls (t :: ts) := by
  simp [calls]

theorem calls_le_append (us ts : List Token) : calls ts ≤ calls (us ++ ts) := by
  induction us with
  | nil => exact Nat.le_refl _
  | cons u us ih => exact Nat.le_trans ih (calls_le_cons u (us ++ ts))

theorem calls_lt_call {name : String} {kind : AffixKind} {ts : List Token}
    (h : function? name = some kind) (hts : ts.head? ≠ some (.sym .rparen)) :
    calls ts < calls (.ident name :: .sym .lparen :: ts) := by
  have := calls_le_cons (.sym .lparen) ts
  have hstarts : startsCall (.ident name :: .sym .lparen :: ts) = true := by
    simp [startsCall, h, hts]
  rw [calls, if_pos hstarts]
  omega

/-! ## enough budgets -/

/-- Levels that are left, and functions that are given an argument, below some number. -/
def Spare (bound depth : Nat) (ts : List Token) : Prop :=
  depth ≤ maxNesting ∧ calls ts + (maxNesting - depth) < bound

/-- A budget greater than the levels left and the functions that are given an argument is enough. -/
theorem exprWithin_settles_calls (stop : Nat) {budget budget' : Nat} (h : budget ≤ budget') :
    Settles (Spare budget) (exprWithin stop budget) (exprWithin stop budget') := by
  refine exprWithin_settles stop (by simp [Spare]) (fun b => ?_) h
  constructor
  case le => exact fun h => h.1
  case level_of_inside => grind [Spare]
  case level_of_append => grind [Spare, calls_le_append]
  case inside_of_append => grind [Spare, calls_le_append]
  case deeper =>
    intro depth t ts h hd
    have := calls_le_cons t ts
    grind [Spare]
  case call =>
    intro depth name kind ts h hk hts
    have := calls_lt_call hk hts
    grind [Spare]

/-- The expression that a text writes, read with at most `budget` disjunctions open at one time. -/
def parseWithin (budget : Nat) (text : String) : Except Halt Expr :=
  match tokens text.toList with
  | .error e => .error (.refused e)
  | .ok ts =>
    if ts.isEmpty then .error (.refused .empty)
    else complete (byteLength text.toList) (exprWithin (byteLength text.toList) budget 0 ts)

theorem complete_ne_exhausted {bound stop : Nat} {r : Except Halt (Parsed Expr bound)}
    (h : r ≠ .error .exhausted) : complete stop r ≠ .error .exhausted := by
  unfold complete
  split
  · next e => simpa using h
  · split <;> simp [fault]

/-- The error of an early end is the refusal, unless the budget has run out. -/
theorem mapError_refused {stop : Nat} {r : Except Halt Expr} (h : r ≠ .error .exhausted) :
    (r.mapError (Halt.error stop)).mapError .refused = r := by
  rcases r with (_ | e) | e
  · contradiction
  · rfl
  · rfl

/-- One more than the nesting limit and the functions that are given an argument is enough. -/
theorem parseWithin_of_calls {budget : Nat} {text : String}
    (h : maxNesting + callsOf text < budget) :
    parseWithin budget text = (parse text).mapError .refused := by
  unfold parseWithin parse
  unfold callsOf at h
  cases htokens : tokens text.toList with
  | error e => rfl
  | ok ts =>
      simp only [htokens] at h
      simp only [parseTokens]
      by_cases hempty : ts.isEmpty = true
      · rw [if_pos hempty, if_pos hempty]
        rfl
      · rw [if_neg hempty, if_neg hempty]
        generalize byteLength text.toList = stop
        have hspare : Spare budget 0 (bare ts) := ⟨Nat.zero_le _, by omega⟩
        have hfewer : Fewer (ts.length + 1) 0 (bare ts) := ⟨Nat.zero_le _, by simp [bare]⟩
        obtain ⟨heq, hne⟩ := exprWithin_settles_calls stop
          (Nat.le_max_left budget (ts.length + 1)) _ _ hspare
        obtain ⟨heq', -⟩ := exprWithin_settles_length stop
          (Nat.le_max_right budget (ts.length + 1)) _ _ hfewer
        rw [← heq', heq, mapError_refused (complete_ne_exhausted hne)]

/-! ## budgets that run out -/

/-- A phrase that stops short in its first atom stops short as a whole. -/
theorem exprWithin_of_atom {stop budget depth : Nat} {ts : List Placed} {h : Halt}
    (hts : ∀ pos r, ts ≠ ⟨.sym .not, pos⟩ :: r)
    (ha : atom (exprWithin stop budget) stop depth ts = .error h) :
    exprWithin stop (budget + 1) depth ts = .error h := by
  have hn : negation (exprWithin stop budget) stop depth ts = .error h := by
    unfold negation
    split
    · next pos r => exact absurd rfl (hts pos r)
    · simp [comparison, operand, ha]
  simp [exprWithin, disjunction, conjunction, chain, hn]

theorem arguments_of_inner {inner : Parser Expr} {stop depth : Nat} {ts : List Placed} {h : Halt}
    (hts : (bare ts).head? ≠ some (.sym .rparen)) (hi : inner depth ts = .error h) :
    arguments inner stop depth ts = .error h := by
  unfold arguments
  split
  · exact absurd rfl hts
  · simp [argumentsFrom, hi]

/-- Functions in the arguments of each other. -/
def nested : (n : Nat) → List Token
  | 0 => []
  | n + 1 => .ident "OpenPrefixCount" :: .sym .lparen :: nested n

/-- Functions in the arguments of each other inside parentheses, and more tokens in their midst. -/
def deep (m n : Nat) (tail : List Token) : List Token :=
  List.replicate m (.sym .lparen) ++ (nested n ++ tail)

section Nested

variable {tail : List Token}

theorem all_isPlain_deep (m n : Nat) (h : tail.all Token.isPlain = true) :
    (deep m n tail).all Token.isPlain = true := by
  have hname : (Token.ident "OpenPrefixCount").isPlain = true := by decide +kernel
  have hnested : (nested n).all Token.isPlain = true := by
    induction n with
    | zero => rfl
    | succ n ih => simp [nested, hname, ih]
  simp [deep, hnested, h]

theorem head?_nested (htail : tail.head? ≠ some (.sym .rparen)) (n : Nat) :
    (nested n ++ tail).head? ≠ some (.sym .rparen) := by
  cases n with
  | zero => exact htail
  | succ n => simp [nested]

theorem calls_nested (htail : tail.head? ≠ some (.sym .rparen)) (n : Nat) :
    calls (nested n ++ tail) = calls tail + n := by
  induction n with
  | zero => rfl
  | succ n ih =>
      have hhead := head?_nested htail n
      have hcall : startsCall
          (.ident "OpenPrefixCount" :: .sym .lparen :: (nested n ++ tail)) = true := by
        simp only [startsCall, bne_iff_ne.mpr hhead]
        rfl
      simp only [nested, List.cons_append]
      rw [calls, if_pos hcall, calls, ih]
      rfl

theorem calls_deep (htail : tail.head? ≠ some (.sym .rparen)) (m n : Nat) :
    calls (deep m n tail) = calls tail + n := by
  induction m with
  | zero => simpa [deep] using calls_nested htail n
  | succ m ih => simpa [deep, List.replicate_succ, calls, startsCall] using ih

/-- Each function in the arguments of another one takes from the budget, as each pair of parentheses
does. -/
theorem exhausted_of_nested (htail : tail.head? ≠ some (.sym .rparen)) {stop budget depth m n : Nat}
    {ts : List Placed} (hts : bare ts = deep m n tail)
    (hd : depth + m ≤ maxNesting) (hb : budget ≤ m + n) :
    exprWithin stop budget depth ts = .error .exhausted := by
  induction budget generalizing depth m n ts with
  | zero => rfl
  | succ budget ih =>
      cases m with
      | succ m =>
          obtain ⟨pos, r, rfl, hr⟩ := bare_eq_cons hts
          have hinner : exprWithin stop budget (depth + 1) r = .error .exhausted :=
            ih hr (by omega) (by omega)
          have hdepth : depth < maxNesting := by omega
          exact exprWithin_of_atom (by simp) (by simp [atom, enclosed, hdepth, hinner])
      | zero =>
          obtain ⟨n, rfl⟩ : ∃ k, n = k + 1 := ⟨n - 1, by omega⟩
          obtain ⟨pos, r, rfl, hr⟩ := bare_eq_cons hts
          obtain ⟨pos', r', rfl, hr'⟩ := bare_eq_cons hr
          have hinner : exprWithin stop budget depth r' = .error .exhausted :=
            ih (m := 0) hr' hd (by omega)
          have harguments : arguments (exprWithin stop budget) stop depth r' = .error .exhausted :=
            arguments_of_inner (by rw [hr']; exact head?_nested htail n) hinner
          refine exprWithin_of_atom (by simp) ?_
          simp [atom, named, keyword?, function?, harguments]

theorem parseWithin_deep (htail : tail.head? ≠ some (.sym .rparen))
    (hplain : tail.all Token.isPlain = true) (hne : tail ≠ []) {budget m n : Nat}
    (hm : m ≤ maxNesting) (hb : budget ≤ m + n) :
    parseWithin budget (String.ofList (spell (deep m n tail))) = .error .exhausted := by
  obtain ⟨ps, hps, hts⟩ := exists_tokens_spell (all_isPlain_deep m n hplain)
  have hpsne : ¬ ps.isEmpty = true := by
    intro hempty
    obtain rfl := List.isEmpty_iff.mp hempty
    simp [deep, hne] at hts
  simp only [parseWithin, String.toList_ofList, hps]
  rw [if_neg hpsne, exhausted_of_nested htail hts (by omega) hb]
  rfl

end Nested

/-! ## the recursion of the parser -/

/-- **The recursion of the parser**: a budget of open disjunctions never runs out on texts where at
most `n` functions are given an argument, and the text reads as without a budget, just when it is
greater than the nesting limit and `n` together. So one more than the nesting limit is enough where no
function is given an argument, and nowhere else. -/
theorem parseWithin_eq_iff {n budget : Nat} :
    (∀ text, callsOf text ≤ n → parseWithin budget text = (parse text).mapError .refused) ↔
      maxNesting + n < budget := by
  constructor
  · intro h
    by_cases hb : maxNesting + n < budget
    · exact hb
    · have hx : [Token.ident "x"].all Token.isPlain = true := by decide +kernel
      obtain ⟨ps, hps, hts⟩ := exists_tokens_spell (all_isPlain_deep maxNesting n hx)
      have hcalls : callsOf (String.ofList (spell (deep maxNesting n [.ident "x"]))) = n := by
        simp only [callsOf, String.toList_ofList, hps, hts]
        rw [calls_deep (by simp)]
        simp [calls, startsCall]
      have hrun := parseWithin_deep (by simp) hx (by simp) (Nat.le_refl maxNesting)
        (Nat.le_of_not_lt hb)
      rw [h _ (Nat.le_of_eq hcalls)] at hrun
      generalize parse _ = r at hrun
      cases r <;> simp at hrun
  · intro h text htext
    exact parseWithin_of_calls (by omega)

/-- Three hundred functions in the arguments of each other, with no parentheses around them, open more
disjunctions than the nesting limit has levels. -/
theorem parseWithin_nested_calls :
    parseWithin (maxNesting + 1) (String.ofList (spell
      (deep 0 300 (.ident "true" :: List.replicate 300 (.sym .rparen))))) = .error .exhausted := by
  refine parseWithin_deep ?_ (by decide +kernel) (List.cons_ne_nil _ _) (Nat.zero_le _) (by decide)
  rw [List.head?_cons]
  simp

end ShopLens.Filter
