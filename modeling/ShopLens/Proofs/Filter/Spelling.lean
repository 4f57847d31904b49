import ShopLens.Filter.Eval
import ShopLens.Proofs.Filter.Acceptance

/-!
# ShopLens.Proofs.Filter.Spelling

Texts with given tokens. A symbol or a name with a blank behind it is read back whatever follows
(`exists_readToken`), so a text that puts a blank behind each token has exactly these tokens
(`exists_tokens_spell`), and the text of a phrase is accepted (`parse_spell`).
-/

namespace ShopLens.Filter

open ShopLens.Text

/-! ## one token -/

/-- The characters of a symbol. -/
def Symbol.chars : Symbol → List Char
  | lparen => ['(']
  | rparen => [')']
  | comma => [',']
  | dot => ['.']
  | not => ['!']
  | and => ['&', '&']
  | or => ['|', '|']
  | cmp .eq => ['=', '=']
  | cmp .ne => ['!', '=']
  | cmp .ge => ['>', '=']
  | cmp .le => ['<', '=']
  | cmp .gt => ['>']
  | cmp .lt => ['<']

/-- Whether characters make up one name. -/
def isName : List Char → Bool
  | [] => false
  | c :: r => isNameStart c && r.all isNamePart

/-- The characters of a token other than a literal. -/
def Token.chars : Token → List Char
  | sym s => s.chars
  | ident name => name.toList
  | _ => []

/-- Whether a token is a symbol or a name. -/
def Token.isPlain : Token → Bool
  | sym _ => true
  | ident name => isName name.toList
  | _ => false

@[simp] theorem isPlain_sym (s : Symbol) : (Token.sym s).isPlain = true := rfl

/-- A name starts with no digit. -/
theorem isDigit_of_isNameStart {c : Char} (h : isNameStart c = true) : c.isDigit = false := by
  have hdigits : ((List.range 58).all fun n => !(Char.ofNat n).isDigit ||
      !isNameStart (Char.ofNat n)) = true := by decide +kernel
  cases hd : c.isDigit with
  | false => rfl
  | true =>
      have hlt : c.toNat < 58 := Nat.lt_succ_of_le (Char.isDigit_iff_toNat.mp hd).2
      have hnot := List.all_eq_true.mp hdigits c.toNat (List.mem_range.mpr hlt)
      simp [h, hd] at hnot

/-- A name starts with no blank. -/
theorem isBlank_of_isNameStart {c : Char} (h : isNameStart c = true) : isBlank c = false := by
  have hblanks : (blanks.all fun d => !isNameStart d) = true := by decide +kernel
  cases hb : isBlank c with
  | false => rfl
  | true =>
      have hnot := List.all_eq_true.mp hblanks c (isBlank_iff.mp hb)
      simp [h] at hnot

/-- What is read where a name starts. -/
theorem readToken_of_isNameStart {c : Char} (r : List Char) (h : isNameStart c = true) :
    readToken c r = .ok (readName c r) := by
  have hne {d : Char} (hd : isNameStart d = false) : c ≠ d := by
    rintro rfl
    simp [h] at hd
  have hsingle : single? c = none := by
    simp [single?, hne (d := '(') (by decide), hne (d := ')') (by decide),
      hne (d := ',') (by decide), hne (d := '.') (by decide)]
  simp [readToken, hsingle, h, isDigit_of_isNameStart h, hne (d := '!') (by decide),
    hne (d := '>') (by decide), hne (d := '<') (by decide), hne (d := '&') (by decide),
    hne (d := '|') (by decide), hne (d := '=') (by decide), hne (d := '\"') (by decide)]

/-- A symbol or a name is read back where a blank follows. -/
theorem exists_readToken {t : Token} (h : t.isPlain = true) (after : List Char) :
    ∃ c r, t.chars ++ ' ' :: after = c :: r ∧ isBlank c = false ∧
      ∃ l, readToken c r = .ok l ∧ l.token = t ∧ l.rest = ' ' :: after := by
  cases t with
  | int => contradiction
  | float => contradiction
  | str => contradiction
  | sym s =>
      rcases s with _ | _ | _ | _ | _ | _ | _ | (_ | _ | _ | _ | _ | _) <;>
        exact ⟨_, _, rfl, by decide, _, rfl, rfl, rfl⟩
  | ident name =>
      have hname : isName name.toList = true := h
      cases hcs : name.toList with
      | nil => simp [hcs, isName] at hname
      | cons c r =>
          simp only [hcs, isName, Bool.and_eq_true, List.all_eq_true] at hname
          obtain ⟨hc, hr⟩ := hname
          have htake : (r ++ ' ' :: after).takeWhile isNamePart = r := by
            rw [List.takeWhile_append_of_pos hr]
            simp [show isNamePart ' ' = false by decide]
          have hdrop : (r ++ ' ' :: after).dropWhile isNamePart = ' ' :: after := by
            rw [List.dropWhile_append_of_pos hr]
            simp [show isNamePart ' ' = false by decide]
          refine ⟨c, r ++ ' ' :: after, by simp [Token.chars, hcs],
            isBlank_of_isNameStart hc, _, readToken_of_isNameStart _ hc, ?_, hdrop⟩
          simp [readName, htake, ← hcs]

/-! ## all tokens -/

/-- The characters of tokens, with a blank behind each one. -/
def spell (ts : List Token) : List Char := ts.flatMap fun t => t.chars ++ [' ']

theorem exists_tokensFrom_spell {ts : List Token} (h : ts.all Token.isPlain = true) (pos : Nat) :
    ∃ ps, tokensFrom pos (spell ts) = .ok ps ∧ bare ps = ts := by
  induction ts generalizing pos with
  | nil => exact ⟨[], by simp [spell, tokensFrom], rfl⟩
  | cons t ts ih =>
      rw [List.all_cons, Bool.and_eq_true] at h
      obtain ⟨c, r, hcs, hblank, l, hl, ht, hrest⟩ := exists_readToken h.1 (spell ts)
      obtain ⟨ps, hps, hts⟩ := ih h.2 (pos + byteLength l.lexeme + ' '.utf8Size)
      have hspell : spell (t :: ts) = c :: r := by
        rw [← hcs]
        simp [spell]
      refine ⟨⟨l.token, pos⟩ :: ps, ?_, by simp [ht, hts]⟩
      rw [hspell, tokensFrom]
      have hnext : tokensFrom (pos + byteLength l.lexeme) l.rest = .ok ps := by
        rw [hrest, tokensFrom, if_pos (by decide), hps]
      simp [hblank, hl, hnext]

/-- The text of symbols and names has just these tokens. -/
theorem exists_tokens_spell {ts : List Token} (h : ts.all Token.isPlain = true) :
    ∃ ps, tokens (spell ts) = .ok ps ∧ bare ps = ts :=
  exists_tokensFrom_spell h 0

/-- The text of a disjunction with enough levels is accepted. -/
theorem parse_spell {n c : Nat} {ts : List Token} {e : Expr} (h : Derives (.chain .or) n c ts e)
    (hc : c ≤ maxNesting) (hp : ts.all Token.isPlain = true) :
    parse (String.ofList (spell ts)) = .ok e := by
  obtain ⟨ps, hps, rfl⟩ := exists_tokens_spell hp
  simp only [parse, String.toList_ofList, hps]
  exact parseTokens_of_derives h hc

end ShopLens.Filter
