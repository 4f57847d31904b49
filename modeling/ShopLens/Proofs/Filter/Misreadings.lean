import ShopLens.Proofs.Filter.Lexemes

/-!
# ShopLens.Proofs.Filter.Misreadings

Why the lexer stops: `Misread f cs` tells, without the lexer, in which way the front of a text is no
token. A character stands alone that counts only when doubled, a text literal is not closed, a whole
number is out of range, or no token starts with the character.

A text without tokens has tokens up to such a place, which is where the fault lies
(`misread_of_tokensFrom`).
-/

namespace ShopLens.Filter

open ShopLens.Text

/-- The text starts with what is no token, for the reason that the fault names. -/
inductive Misread : SyntaxFault → List Char → Prop where
  | lone {c : Char} {r : List Char} (hc : c ∈ ['&', '|', '=']) (hr : r.head? ≠ some c) :
      Misread (.expectedPair c) (c :: r)
  | unclosed {r : List Char} (h : ∀ raw meant, Body raw meant → ¬ raw <+: r) :
      Misread .unterminatedText ('"' :: r)
  | large {ds r : List Char} (hne : ds ≠ []) (hd : ∀ d ∈ ds, d.isDigit)
      (hr : r.head?.any Char.isDigit = false) (hf : startsFraction r = false)
      (hn : Decimal.within64? (Decimal.ofDigits ds) = none) :
      Misread (.integerRange (String.ofList ds)) (ds ++ r)
  | strange {c : Char} {r : List Char} (hc : isBlank c = false)
      (h : ∀ t w, Lexeme t w → w.head? ≠ some c) : Misread (.unexpectedChar c) (c :: r)

/-! ## one token -/

section Token

variable {c : Char} {r : List Char} {f : SyntaxFault}

theorem misread_of_readPair {s : Symbol} (hc : c ∈ ['&', '|', '='])
    (h : readPair (c := c) s r = .error f) : Misread f (c :: r) := by
  unfold readPair at h
  split at h
  · obtain rfl := Except.error.inj h
    exact .lone hc (by simp)
  · next d r =>
      split at h
      · contradiction
      · next hd =>
          obtain rfl := Except.error.inj h
          exact .lone hc (by simpa using hd)

theorem misread_of_readText (h : readText '"' r = .error f) : Misread f ('"' :: r) := by
  unfold readText at h
  split at h
  · contradiction
  · next hnone =>
      obtain rfl := Except.error.inj h
      refine .unclosed fun raw meant hbody hpre => ?_
      obtain ⟨rest, rfl⟩ := hpre
      obtain ⟨b, hb, -⟩ := textBody?_of_body hbody rest
      rw [hnone] at hb
      contradiction

theorem misread_of_integer (hc : c.isDigit = true)
    (hf : startsFraction (r.dropWhile Char.isDigit) = false)
    (h : readNumber.integer c r = .error f) : Misread f (c :: r) := by
  unfold readNumber.integer at h
  dsimp only at h
  split at h
  · contradiction
  · next hn =>
      obtain rfl := Except.error.inj h
      have hdigits : ∀ d ∈ c :: r.takeWhile Char.isDigit, d.isDigit := by
        simpa [hc] using fun d => isDigit_of_mem_takeWhile
      have hlarge := Misread.large (by simp) hdigits (head?_dropWhile_any _ _) hf hn
      rwa [List.cons_append, List.takeWhile_append_dropWhile] at hlarge

theorem misread_of_readNumber (hc : c.isDigit = true) (h : readNumber c r = .error f) :
    Misread f (c :: r) := by
  unfold readNumber at h
  dsimp only at h
  split at h
  · next d after hrest =>
      split at h
      · contradiction
      · next hd => exact misread_of_integer hc (by simpa [hrest, startsFraction] using hd) h
  · next hne =>
      refine misread_of_integer hc ?_ h
      unfold startsFraction
      split
      · next d after hrest => exact absurd hrest (hne d after)
      · rfl

/-- How lexemes start. -/
theorem Lexeme.start {t : Token} {w : List Char} (h : Lexeme t w) (hw : w.head? = some c) :
    c ∈ ['(', ')', ',', '.', '!', '>', '<', '&', '|', '=', '"'] ∨ c.isDigit = true ∨
      isNameStart c = true := by
  cases h with
  | sym s =>
      left
      rcases s with _ | _ | _ | _ | _ | _ | _ | (_ | _ | _ | _ | _ | _)
      all_goals
        obtain rfl := Option.some.inj hw
        decide
  | int _ hd _ => exact .inr (.inl (hd c (List.mem_of_head? hw)))
  | @float whole places hne _ hd _ =>
      obtain ⟨d, whole, rfl⟩ := List.exists_cons_of_ne_nil hne
      obtain rfl : d = c := Option.some.inj hw
      exact .inr (.inl (hd d (by simp)))
  | str _ =>
      obtain rfl : '"' = c := Option.some.inj hw
      exact .inl (by decide)
  | ident hname =>
      cases w with
      | nil => contradiction
      | cons d r =>
          obtain rfl : d = c := Option.some.inj hw
          simp only [isName, Bool.and_eq_true] at hname
          exact .inr (.inr hname.1)

/-- Where no token can be read off the front of a text, the fault says why. -/
theorem misread_of_readToken (hc : isBlank c = false) (h : readToken c r = .error f) :
    Misread f (c :: r) := by
  revert h
  fun_cases readToken c r with
  | case1 | case2 | case3 | case4 | case10 => exact nofun
  | case5 | case6 | case7 =>
      subst_vars
      exact misread_of_readPair (by simp)
  | case8 =>
      subst_vars
      exact misread_of_readText
  | case9 _ _ _ _ _ _ _ _ hdigit => exact misread_of_readNumber hdigit
  | case11 =>
      intro h
      obtain rfl := Except.error.inj h
      -- every character that starts a lexeme was met in a case before
      refine .strange hc fun t w hlex hw => ?_
      rcases hlex.start hw with hmem | hdigit | hname
      · simp only [List.mem_cons, List.not_mem_nil, or_false] at hmem
        rcases hmem with rfl | rfl | rfl | rfl | rfl | rfl | rfl | rfl | rfl | rfl | rfl <;>
          contradiction
      · contradiction
      · contradiction

end Token

/-! ## whole texts -/

/-- **The lexer stops where no token can be read.** A text without tokens has some up to the place where
its fault lies. -/
theorem misread_of_tokensFrom {pos : Nat} {cs : List Char} {e : FilterError}
    (h : tokensFrom pos cs = .error e) :
    ∃ before after qs f, cs = before ++ after ∧ LexesFrom pos before qs ∧ Misread f after ∧
      e = .malformed (pos + byteLength before) f := by
  fun_induction tokensFrom pos cs with
  | case1 => contradiction
  | case2 pos c r hc ih =>
      obtain ⟨before, after, qs, f, rfl, hbefore, hafter, rfl⟩ := ih h
      exact ⟨c :: before, after, qs, f, rfl, .blank hc hbefore, hafter, by
        rw [byteLength_cons, Nat.add_assoc]⟩
  | case3 pos c r hc fault hfault =>
      obtain rfl := Except.error.inj h
      exact ⟨[], c :: r, [], fault, rfl, .nil, misread_of_readToken (by simpa using hc) hfault, rfl⟩
  | case4 pos c r hc l hl e' he ih =>
      obtain rfl := Except.error.inj h
      obtain ⟨before, after, qs, f, hrest, hbefore, hafter, rfl⟩ := ih he
      obtain ⟨hw, hgo⟩ := lexeme_of_readToken hl
      rw [hrest] at hgo
      refine ⟨l.lexeme ++ before, after, ⟨l.token, pos⟩ :: qs, f, ?_, ?_, hafter, ?_⟩
      · rw [List.append_assoc, ← hrest, l.append_rest]
      · exact .token hw (goesOn_of_append hgo) hbefore
      · rw [byteLength_append, Nat.add_assoc]
  | case5 => contradiction

end ShopLens.Filter
