import Mathlib.Data.List.Basic
import ShopLens.Proofs.Filter.Verdict
import ShopLens.Proofs.Rule.Lines

/-!
# ShopLens.Proofs.Rule.Alternatives

The lines of a rule text are alternatives. A line that is an expression of its own neither starts with
a mark that would make it go on with the line before it nor ends with one that would make the next line
go on with it (`continues_of_lexes`, `opensNext_of_lexes`), since no phrase starts or ends with such a
token. So there is `||` between all lines (`joinLines_intercalate`), and what they are joined to is the
disjunction of what they mean (`exists_derives_joined`): it answers with the first line that holds or
fails, or it is nested too deeply (`compile_joinLines`).
-/

namespace ShopLens

open ShopLens.Text

namespace Filter

/-! ## the ends of phrases -/

/-- Whether a phrase may start with the token. -/
def Token.startsPhrase : Token → Bool
  | .sym .lparen => true
  | .sym .not => true
  | .sym _ => false
  | _ => true

/-- Whether a phrase may end with the token. -/
def Token.endsPhrase : Token → Bool
  | .sym .rparen => true
  | .sym _ => false
  | _ => true

theorem Derives.exists_first {form : Form} {n c : Nat} {ts : List Token} {e : Expr}
    (h : Derives form n c ts e) : ∃ t us, ts = t :: us ∧ t.startsPhrase = true := by
  induction h with
  | ofAtom _ ih => exact ih
  | ofOperand _ ih => exact ih
  | ofComparison _ ih => exact ih
  | first _ ih => exact ih
  | count _ _ ih =>
      obtain ⟨t, us, rfl, ht⟩ := ih
      exact ⟨t, _, rfl, ht⟩
  | search _ _ _ ih =>
      obtain ⟨t, us, rfl, ht⟩ := ih
      exact ⟨t, _, rfl, ht⟩
  | compare _ _ _ ih =>
      obtain ⟨t, us, rfl, ht⟩ := ih
      exact ⟨t, _, rfl, ht⟩
  | link _ _ ih =>
      obtain ⟨t, us, rfl, ht⟩ := ih
      exact ⟨t, _, rfl, ht⟩
  | _ => exact ⟨_, _, rfl, rfl⟩

theorem Derives.exists_last {form : Form} {n c : Nat} {ts : List Token} {e : Expr}
    (h : Derives form n c ts e) : ∃ us t, ts = us ++ [t] ∧ t.endsPhrase = true := by
  induction h with
  | ofAtom _ ih => exact ih
  | ofOperand _ ih => exact ih
  | ofComparison _ ih => exact ih
  | first _ ih => exact ih
  | parens _ _ => exact ⟨_, _, rfl, rfl⟩
  | @count n c ts e name _ _ _ =>
      exact ⟨ts ++ [.sym .dot, .ident name, .sym .lparen], .sym .rparen, by simp, rfl⟩
  | search _ _ _ _ _ => exact ⟨_, _, rfl, rfl⟩
  | function _ => exact ⟨[_, _], _, rfl, rfl⟩
  | @compare n m c d ts us e f op _ _ _ ih =>
      obtain ⟨us, t, rfl, ht⟩ := ih
      exact ⟨ts ++ .sym (.cmp op) :: us, t, by simp, ht⟩
  | not _ ih =>
      obtain ⟨us, t, rfl, ht⟩ := ih
      exact ⟨.sym .not :: us, t, rfl, ht⟩
  | @link k n m c d ts us e f _ _ _ ih =>
      obtain ⟨us, t, rfl, ht⟩ := ih
      exact ⟨ts ++ .sym k.symbol :: us, t, by simp, ht⟩
  | _ => exact ⟨[], _, rfl, rfl⟩

/-- A token whose characters end with one of the marks of an open line ends no phrase. -/
theorem endsPhrase_of_getLast? {t : Token} {w : List Char} {d : Char} (h : Lexeme t w)
    (hlast : w.getLast? = some d) (hd : d ∈ Rule.openingMarks) : t.endsPhrase = false := by
  have hmarks : ∀ m ∈ Rule.openingMarks, m.isDigit = false ∧ isNamePart m = false ∧ m ≠ '"' :=
    List.all_iff_forall_prop.mp (by decide +kernel)
  obtain ⟨hdigit, hname, hquote⟩ := hmarks d hd
  have hmem : d ∈ w := List.mem_of_getLast? hlast
  cases h with
  | sym s =>
      rcases s with _ | _ | _ | _ | _ | _ | _ | (_ | _ | _ | _ | _ | _)
      case rparen =>
        obtain rfl : ')' = d := by simpa [Symbol.chars] using hlast
        exact absurd hd (by decide)
      all_goals rfl
  | int _ hds _ => simp [hds d hmem] at hdigit
  | @float whole places _ hp _ hpd =>
      obtain rfl | ⟨init, x, rfl⟩ := List.eq_nil_or_concat places
      · exact absurd rfl hp
      · obtain rfl : x = d := by simpa [List.getLast?_cons] using hlast
        simp [hpd x (by simp)] at hdigit
  | str hbody =>
      rw [List.getLast?_cons, hbody.getLast?] at hlast
      exact absurd (Option.some.inj hlast).symm hquote
  | ident hcs => simp [isNamePart_of_isName hcs d hmem] at hname

/-- What the last token of a text ends with. -/
theorem LexesFrom.endsPhrase {pos : Nat} {cs : List Char} {ps : List Placed} {d : Char}
    (h : LexesFrom pos cs ps) (hlast : cs.getLast? = some d) (hd : d ∈ Rule.openingMarks) :
    ∃ p ∈ ps.getLast?, p.token.endsPhrase = false := by
  have hblank : ∀ m ∈ Rule.openingMarks, isBlank m = false :=
    List.all_iff_forall_prop.mp (by decide +kernel)
  induction h with
  | nil => simp at hlast
  | @blank pos c r ps hc _ ih =>
      cases r with
      | nil =>
          obtain rfl : c = d := by simpa using hlast
          simp [hblank c hd] at hc
      | cons c' r => exact ih (by simpa using hlast)
  | @token pos t w r ps hw hgo h ih =>
      cases r with
      | nil =>
          obtain rfl := h.eq_nil
          exact ⟨_, rfl, endsPhrase_of_getLast? hw (by simpa using hlast) hd⟩
      | cons c' r =>
          obtain ⟨p, hp, hends⟩ := ih (by simpa using hlast)
          exact ⟨p, by simp [List.getLast?_cons, Option.mem_def.mp hp], hends⟩

end Filter

namespace Rule

open ShopLens.Filter

/-! ## lines that are expressions -/

variable {line : List Char} {n c : Nat} {ts : List Token} {e : Expr}

/-- A line that starts with a symbol is no expression, unless phrases start with it. -/
theorem startsPhrase_of_lexes {s : Symbol} {r : List Char} (h : Lexes (s.chars ++ r) ts)
    (hgo : (Token.sym s).goesOn r = false) (hder : Derives (.chain .or) n c ts e) :
    (Token.sym s).startsPhrase = true := by
  obtain ⟨t, us, rfl, ht⟩ := hder.exists_first
  obtain ⟨us', heq, -⟩ := h.of_token (.sym s) hgo
  obtain ⟨rfl, -⟩ := List.cons.inj heq
  exact ht

theorem not_lexes_cons {c : Char} {r : List Char} (hc : isBlank c = false)
    (hread : readToken c r = .error (.unexpectedChar c)) : ¬ Lexes (c :: r) ts := by
  rintro ⟨ps, hps, -⟩
  rw [tokens, tokensFrom, if_neg (by simp [hc]), hread] at hps
  contradiction

/-- A line that is an expression does not go on with the line before it. -/
theorem continues_of_lexes (h : Lexes line ts) (hder : Derives (.chain .or) n c ts e) :
    continues line = false := by
  refine Bool.eq_false_iff.mpr fun hc => ?_
  obtain ⟨mark, hmark, hpre⟩ := List.any_eq_true.mp hc
  obtain ⟨r, rfl⟩ := List.isPrefixOf_iff_prefix.mp hpre
  simp only [continuationMarks, List.mem_cons, List.not_mem_nil, or_false] at hmark
  rcases hmark with rfl | rfl | rfl | rfl | rfl | rfl | rfl
  · exact absurd (startsPhrase_of_lexes (s := .and) h rfl hder) (by decide)
  · exact absurd (startsPhrase_of_lexes (s := .or) h rfl hder) (by decide)
  · exact absurd (startsPhrase_of_lexes (s := .rparen) h rfl hder) (by decide)
  · exact not_lexes_cons (by decide) rfl h
  · exact absurd (startsPhrase_of_lexes (s := .comma) h rfl hder) (by decide)
  · exact not_lexes_cons (by decide) rfl h
  · exact absurd (startsPhrase_of_lexes (s := .dot) h rfl hder) (by decide)

/-- The next line does not go on with a line that is an expression. -/
theorem opensNext_of_lexes (h : Lexes line ts) (hder : Derives (.chain .or) n c ts e) :
    opensNext line = false := by
  refine Bool.eq_false_iff.mpr fun hopen => ?_
  obtain ⟨d, hlast, hd⟩ := (Option.any_eq_true _ _).mp hopen
  obtain ⟨ps, hps, rfl⟩ := Lexes.lexes_iff.mp h
  obtain ⟨p, hp, hends⟩ := hps.endsPhrase hlast (by simpa using hd)
  obtain ⟨us, t, heq, ht⟩ := hder.exists_last
  have htoken : (bare ps).getLast? = some p.token := by
    rw [bare, List.getLast?_map, Option.mem_def.mp hp, Option.map_some]
  rw [heq, List.getLast?_append] at htoken
  obtain rfl : t = p.token := by simpa using htoken
  simp [ht] at hends

/-! ## joined lines -/

/-- The text is the expression `e`, whatever it costs. -/
def Says (cs : List Char) (e : Expr) : Prop :=
  ∃ ts n c, Lexes cs ts ∧ Derives (.chain .or) n c ts e

/-- Two expressions with `||` between them. -/
theorem Says.or {cs ds : List Char} {f : Expr} (h : Says cs e) (h' : Says ds f) :
    ∃ g, Says (cs ++ [' ', '|', '|', ' '] ++ ds) g ∧
      ∀ limits l, g.verdict limits l = (Expr.or e f).verdict limits l := by
  obtain ⟨ts, n, c, hts, hder⟩ := h
  obtain ⟨us, m, d, hus, hder'⟩ := h'
  obtain ⟨links, cost, g, hg, hverdict⟩ := hder.graft hder'
  have hlexes := hts.append (hus.spaced .or) rfl
  rw [← List.append_assoc] at hlexes
  exact ⟨g, ⟨_, links, cost, hlexes, hg⟩, hverdict⟩

/-- Between two expressions stands `||`. -/
theorem seam_of_says {cs ds : List Char} {f : Expr} (h : Says cs e) (h' : Says ds f) :
    seam cs ds = [' ', '|', '|', ' '] := by
  obtain ⟨ts, n, c, hts, hder⟩ := h
  obtain ⟨us, m, d, hus, hder'⟩ := h'
  rw [seam, continues_of_lexes hus hder', opensNext_of_lexes hts hder]
  rfl

/-- The truth value that the first of some verdicts other than `false` gives. -/
def firstVerdict : List (Option Bool) → Option Bool
  | [] => some false
  | v :: vs => v.bind fun b => if b then some true else firstVerdict vs

/-- Lines that are expressions are joined to one, with the first verdict that is not `false`. -/
theorem exists_says_joined {rules : List (List Char × Expr)} (hne : rules ≠ [])
    (h : ∀ r ∈ rules, Says r.1 r.2) :
    ∃ g, Says (joinWithSeams (rules.map Prod.fst)) g ∧
      ∀ limits l, g.verdict limits l = firstVerdict (rules.map (·.2.verdict limits l)) := by
  induction rules with
  | nil => contradiction
  | cons r rules ih =>
      have hr := h r (by simp)
      cases rules with
      | nil =>
          refine ⟨r.2, hr, fun limits l => ?_⟩
          simp only [List.map_cons, List.map_nil, firstVerdict]
          cases r.2.verdict limits l with
          | none => rfl
          | some b => cases b <;> rfl
      | cons r' rules =>
          obtain ⟨g, hg, hverdict⟩ := ih (by simp) fun q hq => h q (by simp [hq])
          obtain ⟨g', hg', hverdict'⟩ := hr.or hg
          refine ⟨g', ?_, fun limits l => ?_⟩
          · simpa [joinWithSeams, seam_of_says hr (h r' (by simp))] using hg'
          · rw [hverdict', verdict_or, hverdict]
            rfl

theorem Says.trim {cs : List Char} (h : Says cs e) : Says (trim cs) e := by
  obtain ⟨ts, n, c, hts, hder⟩ := h
  obtain ⟨ps, hps, rfl⟩ := Lexes.lexes_iff.mp hts
  obtain ⟨before, after, -, -, -, htrim⟩ := lexesFrom_trim hps
  obtain ⟨qs, hqs, hbare⟩ := htrim.shift 0
  exact ⟨bare ps, n, c, Lexes.lexes_iff.mpr ⟨qs, hqs, hbare⟩, hder⟩

theorem Says.ne_nil {cs : List Char} (h : Says cs e) : cs ≠ [] := by
  rintro rfl
  obtain ⟨ts, n, c, hts, hder⟩ := h
  obtain ⟨t, us, rfl, -⟩ := hder.exists_first
  simpa using Lexes.nil.unique hts

theorem says_of_compile {text : String} {p : Predicate} (h : compile text = .ok p) :
    ∃ e, Says text.toList e ∧ e.predicate = p := by
  obtain ⟨ts, n, c, e, hts, hder, -, he⟩ := derives_of_compile h
  exact ⟨e, ⟨ts, n, c, hts, hder⟩, he⟩

/-- Lines that are expressions, as one text, are joined without losing any of them. -/
theorem joinLines_intercalate {ls : List (List Char)} (hne : ls ≠ [])
    (hbreaks : ∀ l ∈ ls, '\r' ∉ l ∧ '\n' ∉ l) (h : ∀ l ∈ ls, ∃ e, Says l e) :
    joinLines (['\n'].intercalate ls) = joinWithSeams (ls.map Text.trim) := by
  have hr : '\r' ∉ ['\n'].intercalate ls :=
    not_mem_intercalate (by decide) fun l hl => (hbreaks l hl).1
  have hcontent : (ls.map Text.trim).filter (· ≠ []) = ls.map Text.trim := by
    refine List.filter_eq_self.mpr fun t ht => ?_
    obtain ⟨l, hl, rfl⟩ := List.mem_map.mp ht
    obtain ⟨e, he⟩ := h l hl
    simpa using he.trim.ne_nil
  rw [joinLines, contentLines, unifyBreaks_of_not_mem hr,
    pieces_intercalate hne fun l hl => (hbreaks l hl).2, hcontent]

/-- The first of some answers that is not `false`; `false` if there is none. -/
def firstAnswer : List (Except FilterError Bool) → Except FilterError Bool
  | [] => .ok false
  | .ok false :: answers => firstAnswer answers
  | answer :: _ => answer

theorem toOption_firstAnswer (answers : List (Except FilterError Bool)) :
    (firstAnswer answers).toOption = firstVerdict (answers.map Except.toOption) := by
  induction answers with
  | nil => rfl
  | cons answer answers ih =>
      cases answer with
      | error => rfl
      | ok b => cases b with
        | true => rfl
        | false => exact ih

/-- The trimmed texts of rules, with the expressions that they are. -/
theorem exists_exprs {rules : List (String × Predicate)} (h : ∀ r ∈ rules, compile r.1 = .ok r.2) :
    ∃ parsed : List (List Char × Expr),
      parsed.map Prod.fst = (rules.map (·.1.toList)).map Text.trim ∧
        parsed.map (·.2.predicate) = rules.map Prod.snd ∧ ∀ q ∈ parsed, Says q.1 q.2 := by
  induction rules with
  | nil => exact ⟨[], rfl, rfl, by simp⟩
  | cons r rules ih =>
      obtain ⟨parsed, hfst, hsnd, hsays⟩ := ih fun q hq => h q (by simp [hq])
      obtain ⟨e, he, hpredicate⟩ := says_of_compile (h r (by simp))
      refine ⟨(Text.trim r.1.toList, e) :: parsed, by simpa using hfst, by simp [hpredicate, hsnd], ?_⟩
      intro q hq
      rcases List.mem_cons.mp hq with rfl | hq
      · exact he.trim
      · exact hsays q hq

/-- **Lines are alternatives**: lines that are rules of their own are joined to a text that is nested
too deeply, or that is a rule which answers, up to the wording of a failure, with the first line that
does not answer `false`. -/
theorem compile_joinLines {rules : List (String × Predicate)} (hne : rules ≠ [])
    (hbreaks : ∀ r ∈ rules, '\r' ∉ r.1.toList ∧ '\n' ∉ r.1.toList)
    (h : ∀ r ∈ rules, compile r.1 = .ok r.2) :
    (∃ pos, compile (String.ofList (joinLines (['\n'].intercalate (rules.map (·.1.toList))))) =
        .error (.malformed pos .tooDeep)) ∨
      ∃ p, compile (String.ofList (joinLines (['\n'].intercalate (rules.map (·.1.toList))))) = .ok p ∧
        ∀ limits l, (p limits l).toOption =
          (firstAnswer (rules.map (·.2 limits l))).toOption := by
  obtain ⟨parsed, hfst, hsnd, hsays⟩ := exists_exprs h
  have hparsed : parsed ≠ [] := by
    rintro rfl
    simp [hne] at hfst
  have hsource : ∀ l ∈ rules.map (·.1.toList), ('\r' ∉ l ∧ '\n' ∉ l) ∧ ∃ e, Says l e := by
    intro l hl
    obtain ⟨r, hr, rfl⟩ := List.mem_map.mp hl
    obtain ⟨e, he, -⟩ := says_of_compile (h r hr)
    exact ⟨hbreaks r hr, e, he⟩
  obtain ⟨g, ⟨ts, n, c, hts, hder⟩, hverdict⟩ := exists_says_joined hparsed hsays
  rw [hfst, ← joinLines_intercalate (by simpa using hne) (fun l hl => (hsource l hl).1)
    fun l hl => (hsource l hl).2] at hts
  by_cases hc : c ≤ maxNesting
  · refine .inr ⟨g.predicate, compile_of_lexes (by simpa using hts) hder hc, fun limits l => ?_⟩
    have hanswers : (rules.map (·.2 limits l)).map Except.toOption =
        parsed.map (·.2.verdict limits l) :=
      calc (rules.map (·.2 limits l)).map Except.toOption
        _ = (rules.map Prod.snd).map fun p => (p limits l).toOption := by
            simp only [List.map_map, Function.comp_def]
        _ = parsed.map (·.2.verdict limits l) := by
            rw [← hsnd]
            simp only [List.map_map, Function.comp_def, toOption_predicate]
    rw [toOption_predicate, hverdict, toOption_firstAnswer, hanswers]
  · exact .inl (tooDeep_of_lexes (by simpa using hts) hder (by omega))

/-- Three lines: the first one has no truth value, the second one is a disjunction itself, and the last
one fails for every item. -/
theorem compile_joinLines_of_three :
    let rules : List (String × Predicate) := [("null", Expr.predicate (.literal .null)),
      ("Corrupted || Name == \"Ring\" ", Expr.predicate (.or (.field "Corrupted")
        (.compare .eq (.field "Name") (.literal (.str "Ring"))))),
      ("5", Expr.predicate (.literal (.int 5)))]
    rules ≠ [] ∧ (∀ r ∈ rules, '\r' ∉ r.1.toList ∧ '\n' ∉ r.1.toList) ∧
      (∀ r ∈ rules, compile r.1 = .ok r.2) ∧
      ((∃ pos, compile (String.ofList (joinLines (['\n'].intercalate (rules.map (·.1.toList))))) =
          .error (.malformed pos .tooDeep)) ∨
        ∃ p, compile (String.ofList (joinLines (['\n'].intercalate (rules.map (·.1.toList))))) =
            .ok p ∧ ∀ limits l, (p limits l).toOption =
              (firstAnswer (rules.map (·.2 limits l))).toOption) := by
  intro rules
  have hne : rules ≠ [] := by simp [rules]
  have hbreaks : ∀ r ∈ rules, '\r' ∉ r.1.toList ∧ '\n' ∉ r.1.toList := by
    simp only [rules, List.forall_mem_cons]
    decide
  have hnull : compile "null" = .ok (Expr.predicate (.literal .null)) :=
    compile_of_lexes ⟨[⟨.ident "null", 0⟩], by decide +kernel, rfl⟩
      (Derives.keyword rfl).ofAtom.ofOperand.ofComparison.conjunction.disjunction (by decide)
  have hor : compile "Corrupted || Name == \"Ring\" " = .ok (Expr.predicate
      (.or (.field "Corrupted") (.compare .eq (.field "Name") (.literal (.str "Ring"))))) :=
    compile_of_lexes ⟨[⟨.ident "Corrupted", 0⟩, ⟨.sym .or, 10⟩, ⟨.ident "Name", 13⟩,
        ⟨.sym (.cmp .eq), 18⟩, ⟨.str "Ring", 21⟩], by decide +kernel, rfl⟩
      (.link (Derives.field rfl).ofAtom.ofOperand.ofComparison.conjunction.disjunction
        (Derives.compare .eq (Derives.field rfl).ofAtom
          (Derives.str "Ring").ofAtom).ofComparison.conjunction) (by decide)
  have hint : compile "5" = .ok (Expr.predicate (.literal (.int 5))) :=
    compile_of_lexes ⟨[⟨.int 5, 0⟩], by decide +kernel, rfl⟩
      (Derives.int 5).ofAtom.ofOperand.ofComparison.conjunction.disjunction (by decide)
  have hcompile : ∀ r ∈ rules, compile r.1 = .ok r.2 := by
    simp only [rules, List.forall_mem_cons]
    exact ⟨hnull, hor, hint, by simp⟩
  exact ⟨hne, hbreaks, hcompile, compile_joinLines hne hbreaks hcompile⟩

end Rule

end ShopLens
