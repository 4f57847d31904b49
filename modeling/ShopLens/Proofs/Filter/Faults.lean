import ShopLens.Proofs.Filter.Budget
import ShopLens.Proofs.Filter.Seams

/-!
# ShopLens.Proofs.Filter.Faults

Where the faults of a text lie. The lexer stops at what is no token (`misread_of_tokensFrom`). The parser
gives the offset of a token, or that of the end, and with it a fault that fits what stands there
(`SyntaxFault.Fits`): no level of it leaves the tokens that it was given (`exprWithin_confines`), and the
text in front of a token has just the tokens before that one (`LexesFrom.cut`).

Together: every syntax fault lies on a character boundary of the text, at the end or where something
starts that the fault is about, and what stands in front of it has tokens (`compile_malformed_placed`).
-/

namespace ShopLens.Filter

open ShopLens.Text

/-! ## faults of the parser -/

/-- Whether the parser may report the fault where `next` is the next token, or where none is left. -/
def SyntaxFault.Fits : SyntaxFault → (next : Option Token) → Prop
  | tooDeep, _ => True
  | expectedMethod, next => ∀ name, next ≠ some (.ident name)
  | expectedArguments, next => next ≠ some (.sym .lparen)
  | expectedCommaOrClose, next => next ≠ some (.sym .comma) ∧ next ≠ some (.sym .rparen)
  | expectedClose, next => next ≠ some (.sym .rparen)
  | unexpectedEnd, next => next = none
  | unexpectedSymbol s, next => next = some (.sym s)
  | trailing, next => next ≠ none
  | _, _ => False

/-- A syntax fault lies where one of the tokens starts, or where the text stops, and fits what stands
there. -/
def Halt.LiesIn (stop : Nat) (ts : List Placed) : Halt → Prop
  | refused (.malformed pos f) => ∃ rs, rs <:+ ts ∧ offset stop rs = pos ∧ f.Fits (bare rs).head?
  | _ => True

/-- Of the tokens `ts` the last ones are left, or there is an early end, with a syntax fault only if it
lies in them. -/
structure Confined (stop : Nat) (ts : List Placed) {α : Type} {bound : Nat}
    (r : Except Halt (Parsed α bound)) : Prop where
  rest {p : Parsed α bound} (h : r = .ok p) : p.rest <:+ ts
  halt {e : Halt} (h : r = .error e) : e.LiesIn stop ts

/-- A parser does not leave the tokens that it is given. -/
def Confines (stop : Nat) (p : Parser Expr) : Prop := ∀ depth ts, Confined stop ts (p depth ts)

section Confined

variable {stop : Nat} {ts us : List Placed} {α : Type} {bound : Nat}

theorem Halt.LiesIn.mono {e : Halt} (hs : us <:+ ts) (h : e.LiesIn stop us) : e.LiesIn stop ts := by
  unfold LiesIn at *
  split
  · obtain ⟨rs, hrs, hpos, hf⟩ := h
    exact ⟨rs, hrs.trans hs, hpos, hf⟩
  · trivial

theorem Confined.ok {p : Parsed α bound} (h : p.rest <:+ ts) : Confined stop ts (.ok p) :=
  ⟨fun heq => Except.ok.inj heq ▸ h, nofun⟩

theorem Confined.error {e : Halt} (h : e.LiesIn stop ts) :
    Confined stop ts (.error e : Except Halt (Parsed α bound)) :=
  ⟨nofun, fun heq => Except.error.inj heq ▸ h⟩

theorem Confined.fault {f : SyntaxFault} (hs : us <:+ ts) (hf : f.Fits (bare us).head?) :
    Confined stop ts (fault (offset stop us) f : Except Halt (Parsed α bound)) :=
  .error ⟨us, hs, rfl, hf⟩

theorem Confined.fault_here {f : SyntaxFault} (hf : f.Fits (bare ts).head?) :
    Confined stop ts (Filter.fault (offset stop ts) f : Except Halt (Parsed α bound)) :=
  .fault List.suffix_rfl hf

theorem Confined.mono {r : Except Halt (Parsed α bound)} (hs : us <:+ ts) (h : Confined stop us r) :
    Confined stop ts r :=
  ⟨fun heq => (h.rest heq).trans hs, fun heq => (h.halt heq).mono hs⟩

theorem suffix_of_cons {t : Placed} (h : t :: us <:+ ts) : us <:+ ts :=
  (List.suffix_cons t us).trans h

/-- The next token is another one. -/
theorem head?_bare_ne {t : Token} (h : ∀ pos r, ts = ⟨t, pos⟩ :: r → False) :
    (bare ts).head? ≠ some t := by
  intro heq
  obtain ⟨us, hus⟩ := List.head?_eq_some_iff.mp heq
  obtain ⟨pos, r, rfl, -⟩ := bare_eq_cons hus
  exact h pos r rfl

end Confined

section Levels

variable {inner : Parser Expr} {stop : Nat}

/-! ### arguments -/

theorem argumentsFrom_confined (hi : Confines stop inner) (depth : Nat) (ts : List Placed) :
    Confined stop ts (argumentsFrom inner stop depth ts) := by
  fun_induction argumentsFrom inner stop depth ts with
  | case1 ts e he => exact .error ((hi _ _).halt he)
  | case2 ts p hp pos r hr => exact .ok (suffix_of_cons (hr ▸ (hi _ _).rest hp))
  | case3 ts p hp pos r hr e he ih =>
      have hs : r <:+ ts := suffix_of_cons (hr ▸ (hi _ _).rest hp)
      exact .error ((ih.halt he).mono hs)
  | case4 ts p hp pos r hr q hq ih =>
      have hs : r <:+ ts := suffix_of_cons (hr ▸ (hi _ _).rest hp)
      exact .ok ((ih.rest hq).trans hs)
  | case5 ts p hp hclose hcomma =>
      exact .fault ((hi _ _).rest hp) ⟨head?_bare_ne hcomma, head?_bare_ne hclose⟩

theorem arguments_confined (hi : Confines stop inner) (depth : Nat) (ts : List Placed) :
    Confined stop ts (arguments inner stop depth ts) := by
  unfold arguments
  split
  · exact .ok (List.suffix_cons _ _)
  · exact argumentsFrom_confined hi depth _

/-! ### operands -/

theorem named_confined (hi : Confines stop inner) (depth : Nat) (name : String) (ts : List Placed) :
    Confined stop ts (named inner stop depth name ts) := by
  unfold named
  split
  · exact .ok List.suffix_rfl
  · split
    · next pos r =>
        have h := (arguments_confined hi depth r).mono (List.suffix_cons ⟨.sym .lparen, pos⟩ r)
        split
        · exact .error trivial
        · split
          · next e he => exact .error (h.halt he)
          · next p hp =>
              split
              · exact .ok (h.rest hp)
              · exact .error trivial
    · exact .ok List.suffix_rfl

/-- The fault that there is no level left lies at the parenthesis. -/
theorem enclosed_confined (hi : Confines stop inner) (pos depth : Nat) (ts : List Placed) :
    Confined stop (⟨.sym .lparen, pos⟩ :: ts) (enclosed inner stop pos depth ts) := by
  unfold enclosed
  split
  · have h := (hi (depth + 1) ts).mono (List.suffix_cons ⟨.sym .lparen, pos⟩ ts)
    split
    · next e he => exact .error (h.halt he)
    · next p hp =>
        split
        · next r hr => exact .ok (suffix_of_cons (hr ▸ h.rest hp))
        · next hclose => exact .fault (h.rest hp) (head?_bare_ne hclose)
  · exact .fault_here trivial

theorem atom_confines (hi : Confines stop inner) : Confines stop (atom inner stop) := by
  intro depth ts
  unfold atom
  split
  · exact .fault_here rfl
  · exact .ok (List.suffix_cons _ _)
  · exact .ok (List.suffix_cons _ _)
  · exact .ok (List.suffix_cons _ _)
  · exact (named_confined hi _ _ _).mono (List.suffix_cons _ _)
  · next pos r =>
      have h := enclosed_confined hi pos depth r
      split
      · next e he => exact .error (h.halt he)
      · next p hp => exact .ok (h.rest hp)
  · next s pos r _ => exact .fault_here rfl

theorem method_confined (hi : Confines stop inner) (depth : Nat) (target : Expr)
    (ts : List Placed) : Confined stop ts (method inner stop depth target ts) := by
  unfold method
  split
  · next name pos r =>
      split
      · exact .error trivial
      · split
        · next pos' r' =>
            have hs : r' <:+ ⟨.ident name, pos⟩ :: ⟨.sym .lparen, pos'⟩ :: r' :=
              suffix_of_cons (List.suffix_cons _ _)
            have h := (arguments_confined hi depth r').mono hs
            split
            · next e he => exact .error (h.halt he)
            · next p hp =>
                split
                · exact .ok (h.rest hp)
                · exact .error trivial
        · next hopen => exact .fault (List.suffix_cons _ _) (head?_bare_ne hopen)
  · next hname => exact .fault_here fun name => head?_bare_ne (hname name)

theorem methodsFrom_confined (hi : Confines stop inner) (depth : Nat) (target : Expr)
    (ts : List Placed) : Confined stop ts (methodsFrom inner stop depth target ts) := by
  fun_induction methodsFrom inner stop depth target ts with
  | case1 depth target pos r hd e he =>
      exact .error (((method_confined hi _ _ _).halt he).mono (List.suffix_cons _ _))
  | case2 depth target pos r hd p hp e he ih =>
      have hs : p.rest <:+ r := (method_confined hi _ _ _).rest hp
      exact .error ((ih.halt he).mono (hs.trans (List.suffix_cons _ _)))
  | case3 depth target pos r hd p hp q hq ih =>
      have hs : p.rest <:+ r := (method_confined hi _ _ _).rest hp
      exact .ok ((ih.rest hq).trans (hs.trans (List.suffix_cons _ _)))
  | case4 => exact .fault (List.suffix_cons _ _) trivial
  | case5 => exact .ok List.suffix_rfl

theorem operand_confines (hi : Confines stop inner) : Confines stop (operand inner stop) := by
  intro depth ts
  unfold operand
  split
  · next e he => exact .error ((atom_confines hi _ _).halt he)
  · next p hp =>
      have hs : p.rest <:+ ts := (atom_confines hi _ _).rest hp
      have h := (methodsFrom_confined hi depth p.value p.rest).mono hs
      split
      · next e he => exact .error (h.halt he)
      · next q hq => exact .ok (h.rest hq)

/-! ### operators -/

theorem comparison_confines (hi : Confines stop inner) : Confines stop (comparison inner stop) := by
  intro depth ts
  unfold comparison
  split
  · next e he => exact .error ((operand_confines hi _ _).halt he)
  · next p hp =>
      have hs : p.rest <:+ ts := (operand_confines hi _ _).rest hp
      split
      · next op pos r hr =>
          have h := (operand_confines hi depth r).mono (suffix_of_cons (hr ▸ hs))
          split
          · next e he => exact .error (h.halt he)
          · next q hq => exact .ok (h.rest hq)
      · exact .ok hs

theorem negation_confines (hi : Confines stop inner) : Confines stop (negation inner stop) := by
  intro depth ts
  fun_induction negation inner stop depth ts with
  | case1 depth pos r hd e he ih => exact .error ((ih.halt he).mono (List.suffix_cons _ _))
  | case2 depth pos r hd p hp ih => exact .ok ((ih.rest hp).trans (List.suffix_cons _ _))
  | case3 depth pos r hd => exact .fault_here trivial
  | case4 depth ts _ => exact comparison_confines hi depth ts

theorem linksFrom_confined (op : Symbol) (join : Expr → Expr → Expr) {link : Parser Expr}
    (hl : Confines stop link) (depth : Nat) (left : Expr) (ts : List Placed) :
    Confined stop ts (linksFrom stop op join link depth left ts) := by
  fun_induction linksFrom stop op join link depth left ts with
  | case1 => exact .ok List.suffix_rfl
  | case2 depth left t r ht hd e he =>
      exact .error (((hl _ _).halt he).mono (List.suffix_cons _ _))
  | case3 depth left t r ht hd p hp e he ih =>
      have hs : p.rest <:+ r := (hl _ _).rest hp
      exact .error ((ih.halt he).mono (hs.trans (List.suffix_cons _ _)))
  | case4 depth left t r ht hd p hp q hq ih =>
      have hs : p.rest <:+ r := (hl _ _).rest hp
      exact .ok ((ih.rest hq).trans (hs.trans (List.suffix_cons _ _)))
  | case5 => exact .fault (List.suffix_cons _ _) trivial
  | case6 => exact .ok List.suffix_rfl

theorem chain_confines (op : Symbol) (join : Expr → Expr → Expr) {link : Parser Expr}
    (hl : Confines stop link) : Confines stop (chain stop op join link) := by
  intro depth ts
  unfold chain
  split
  · next e he => exact .error ((hl _ _).halt he)
  · next p hp =>
      have h := (linksFrom_confined op join hl depth p.value p.rest).mono ((hl _ _).rest hp)
      split
      · next e he => exact .error (h.halt he)
      · next q hq => exact .ok (h.rest hq)

/-- Under any budget the parser does not leave the tokens that it is given. -/
theorem exprWithin_confines (budget : Nat) : Confines stop (exprWithin stop budget) := by
  induction budget with
  | zero => exact fun _ _ => .error trivial
  | succ budget ih => exact chain_confines _ _ (chain_confines _ _ (negation_confines ih))

end Levels

/-- A syntax fault of the parser lies in the tokens of the text, or at its end. -/
theorem exists_suffix_of_parseTokens {stop pos : Nat} {ts : List Placed} {f : SyntaxFault}
    (h : parseTokens stop ts = .error (.malformed pos f)) :
    ∃ rs, rs <:+ ts ∧ offset stop rs = pos ∧ f.Fits (bare rs).head? := by
  unfold parseTokens at h
  split at h
  · exact absurd (Except.error.inj h) nofun
  · cases hr : exprWithin stop (ts.length + 1) 0 ts with
    | error e =>
        simp only [hr, complete, mapError_error] at h
        cases e with
        | exhausted =>
            obtain ⟨rfl, rfl⟩ := FilterError.malformed.inj (Except.error.inj h)
            exact ⟨[], List.nil_suffix, rfl, trivial⟩
        | refused e =>
            obtain rfl : e = .malformed pos f := Except.error.inj h
            exact (exprWithin_confines _ _ _).halt hr
    | ok p =>
        simp only [hr, complete] at h
        split at h
        · contradiction
        · next hne =>
            obtain ⟨rfl, rfl⟩ := FilterError.malformed.inj (Except.error.inj h)
            refine ⟨p.rest, (exprWithin_confines _ _ _).rest hr, rfl, fun hnone => hne ?_⟩
            simpa [bare] using hnone

/-! ## places in the text -/

/-- The text in front of a token has the tokens before that one. -/
theorem LexesFrom.cut {pos : Nat} {cs : List Char} {qs rs : List Placed} {p : Placed}
    (h : LexesFrom pos cs (qs ++ p :: rs)) :
    ∃ before after, cs = before ++ after ∧ LexesFrom pos before qs ∧
      p.pos = pos + byteLength before := by
  generalize hps : qs ++ p :: rs = ps at h
  induction h generalizing qs with
  | nil => simp at hps
  | @blank pos c r ps hc _ ih =>
      obtain ⟨before, after, rfl, hbefore, hpos⟩ := ih hps
      exact ⟨c :: before, after, rfl, .blank hc hbefore, by
        rw [hpos, byteLength_cons, Nat.add_assoc]⟩
  | @token pos t w r ps hw hgo _ ih =>
      cases qs with
      | nil =>
          obtain ⟨rfl, rfl⟩ := List.cons.inj hps
          exact ⟨[], w ++ r, rfl, .nil, rfl⟩
      | cons q qs =>
          obtain ⟨rfl, htail⟩ := List.cons.inj hps
          obtain ⟨before, after, rfl, hbefore, hpos⟩ := ih htail
          exact ⟨w ++ before, after, by rw [List.append_assoc],
            .token hw (goesOn_of_append hgo) hbefore, by
            rw [hpos, byteLength_append, Nat.add_assoc]⟩

theorem parse_of_compile {text : String} {e : FilterError} (h : compile text = .error e) :
    parse text = .error e := by
  unfold compile at h
  cases hparse : parse text with
  | error e' =>
      rw [hparse] at h
      exact congrArg _ (Except.error.inj h)
  | ok => simp [hparse, Except.map] at h

/-- A text in two parts, as strings. -/
theorem eq_append_of_toList {text : String} {before after : List Char}
    (h : text.toList = before ++ after) : text = String.ofList before ++ String.ofList after := by
  rw [← String.ofList_append, ← h, String.ofList_toList]

/-- A text without tokens has some up to a place where it goes on with what is no token. -/
theorem exists_misread {text : String} {e : FilterError} (h : tokens text.toList = .error e) :
    ∃ (before after : String) (qs : List Placed) (f : SyntaxFault), text = before ++ after ∧
      tokens before.toList = .ok qs ∧ Misread f after.toList ∧
      e = .malformed before.utf8ByteSize f := by
  obtain ⟨before, after, qs, f, htext, hbefore, hafter, rfl⟩ := misread_of_tokensFrom h
  refine ⟨String.ofList before, String.ofList after, qs, f, eq_append_of_toList htext, ?_, ?_, ?_⟩
  · rw [String.toList_ofList]
    exact lexesFrom_iff.mp hbefore
  · rwa [String.toList_ofList]
  · rw [utf8ByteSize_ofList, Nat.zero_add]

/-- A text can be cut in front of any of its tokens, and at its end. -/
theorem exists_cut {text : String} {qs rs : List Placed} (h : tokens text.toList = .ok (qs ++ rs)) :
    ∃ before after : String, text = before ++ after ∧ tokens before.toList = .ok qs ∧
      before.utf8ByteSize = offset text.utf8ByteSize rs := by
  cases rs with
  | nil => exact ⟨text, "", by simp, by simpa using h, rfl⟩
  | cons p rs =>
      obtain ⟨before, after, htext, hbefore, hpos⟩ := (lexesFrom_iff.mpr h).cut
      refine ⟨String.ofList before, String.ofList after, eq_append_of_toList htext, ?_, ?_⟩
      · rw [String.toList_ofList]
        exact lexesFrom_iff.mp hbefore
      · rw [utf8ByteSize_ofList, offset, hpos, Nat.zero_add]

/-- The end of a part of a text is a character boundary of the text. -/
theorem isValid_append (before after : String) :
    String.Pos.Raw.IsValid (before ++ after) ⟨before.utf8ByteSize⟩ :=
  String.Pos.Raw.isValid_iff_exists_append.mpr ⟨before, after, rfl, rfl⟩

/-- **Faults lie in the text.** The offset of a syntax fault is on a character boundary of the text, and
the text in front of it has tokens. What stands behind it is no token, for the reason that the fault
names; or the text has tokens, and the fault fits the one that starts there or, if there is none, the end
of the text. -/
theorem compile_malformed_placed {text : String} {pos : Nat} {f : SyntaxFault}
    (h : compile text = .error (.malformed pos f)) :
    pos ≤ text.utf8ByteSize ∧ String.Pos.Raw.IsValid text ⟨pos⟩ ∧
      ∃ (before after : String) (qs : List Placed), text = before ++ after ∧
        before.utf8ByteSize = pos ∧ tokens before.toList = .ok qs ∧
        (tokens text.toList = .error (.malformed pos f) ∧ Misread f after.toList ∨
          ∃ rs, tokens text.toList = .ok (qs ++ rs) ∧ f.Fits (bare rs).head? ∧
            (rs = [] ∧ pos = text.utf8ByteSize ∨ ∃ p us, rs = p :: us ∧ p.pos = pos)) := by
  have hparse := parse_of_compile h
  unfold parse at hparse
  cases htokens : tokens text.toList with
  | error e =>
      rw [htokens] at hparse
      obtain ⟨before, after, qs, f', rfl, hbefore, hafter, rfl⟩ := exists_misread htokens
      obtain ⟨rfl, rfl⟩ := FilterError.malformed.inj (Except.error.inj hparse)
      refine ⟨?_, isValid_append before after, before, after, qs, rfl, rfl, hbefore, .inl ⟨rfl, hafter⟩⟩
      rw [String.utf8ByteSize_append]
      exact Nat.le_add_right _ _
  | ok ps =>
      rw [htokens] at hparse
      obtain ⟨rs, ⟨qs, rfl⟩, hpos, hfits⟩ := exists_suffix_of_parseTokens hparse
      rw [byteLength_toList] at hpos
      obtain ⟨before, after, rfl, hbefore, hplace⟩ := exists_cut htokens
      rw [← hplace] at hpos
      subst hpos
      refine ⟨?_, isValid_append before after, before, after, qs, rfl, rfl, hbefore,
        .inr ⟨rs, rfl, hfits, ?_⟩⟩
      · rw [String.utf8ByteSize_append]
        exact Nat.le_add_right _ _
      · cases rs with
        | nil => exact .inl ⟨rfl, hplace⟩
        | cons p us => exact .inr ⟨p, us, rfl, hplace.symm⟩

/-- An umlaut takes two bytes, so the lone character stands in the place 16 and at the offset 17. -/
theorem compile_malformed_placed_of_lone :
    let text := "Name == \"Glück\" & Rarity"
    compile text = .error (.malformed 17 (.expectedPair '&')) ∧
      17 ≤ text.utf8ByteSize ∧ String.Pos.Raw.IsValid text ⟨17⟩ ∧
      ∃ (before after : String) (qs : List Placed), text = before ++ after ∧
        before.utf8ByteSize = 17 ∧ tokens before.toList = .ok qs ∧
        Misread (.expectedPair '&') after.toList := by
  intro text
  have htokens : tokens text.toList = .error (.malformed 17 (.expectedPair '&')) := by decide +kernel
  have hcompile : compile text = .error (.malformed 17 (.expectedPair '&')) := by
    rw [compile, parse, htokens]
    rfl
  obtain ⟨hle, hvalid, before, after, qs, htext, hpos, hbefore, hplace⟩ :=
    compile_malformed_placed hcompile
  refine ⟨hcompile, hle, hvalid, before, after, qs, htext, hpos, hbefore, ?_⟩
  rcases hplace with ⟨-, hmisread⟩ | ⟨rs, hrs, -⟩
  · exact hmisread
  · rw [htokens] at hrs
    contradiction

end ShopLens.Filter
