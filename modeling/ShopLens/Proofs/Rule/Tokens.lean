import ShopLens.Proofs.Rule.Comparisons

/-!
# ShopLens.Proofs.Rule.Tokens

The tokens of a comparison of open affixes: the name, two parentheses with nothing between them, an
operator other than `!=`, and an integer (`runOperator?`). Where a comparison is found, the text goes on
with these tokens (`exists_run`), and where it goes on with them, a comparison is found
(`exists_found_of_runOperator`). The digits of a comparison may be of any script; those of tokens are
ASCII digits, so a text with other ones has no tokens.
-/

namespace ShopLens.Filter

open ShopLens.Text

/-! ## digits of other scripts -/

/-- Whether two ascending sequences of runs have nothing in common. -/
def apart : List Nat → List Nat → Bool
  | start :: stop :: runs, start' :: stop' :: runs' =>
    start ≤ stop && start' ≤ stop' &&
      if stop ≤ start' then apart runs (start' :: stop' :: runs')
      else stop' ≤ start && apart (start :: stop :: runs) runs'
  | _, _ => true
termination_by runs runs' => runs.length + runs'.length

theorem inRuns_of_apart {runs runs' : List Nat} (h : apart runs runs' = true) {n : Nat}
    (hn : inRuns runs n = true) : inRuns runs' n = false := by
  fun_induction apart runs runs' with
  | case1 start stop runs start' stop' runs' ih ih' =>
      simp only [Bool.and_eq_true, decide_eq_true_eq] at h
      obtain ⟨⟨hrun, hrun'⟩, h⟩ := h
      split at h
      · by_cases hstop : n < stop
        · have hlt : n < stop' := by omega
          rw [inRuns_of_lt hlt, decide_eq_false_iff_not]
          omega
        · rw [inRuns_of_le (Nat.le_of_not_lt hstop)] at hn
          exact ih h hn
      · rw [Bool.and_eq_true, decide_eq_true_eq] at h
        by_cases hstop : n < stop'
        · have hlt : n < stop := by omega
          rw [inRuns_of_lt hlt, decide_eq_true_eq] at hn
          omega
        · rw [inRuns_of_le (Nat.le_of_not_lt hstop)]
          exact ih' h.2 hn
  | case2 runs runs' hruns =>
      unfold inRuns at hn ⊢
      split at hn
      · split
        · exact absurd rfl (hruns _ _ _ _ _ _ rfl)
        · rfl
      · contradiction

/-- No name starts with a digit, of whatever script. -/
theorem isNameStart_of_isDecimal {c : Char} (h : isDecimal c = true) : isNameStart c = false := by
  rw [isDecimal] at h
  split at h
  · cases hstart : isNameStart c with
    | false => rfl
    | true => rw [isDigit_of_isNameStart hstart] at h; contradiction
  · next hascii =>
      have hapart : apart decimalRuns alphabeticRuns = true := by decide +kernel
      have hne : c ≠ '_' := by
        rintro rfl
        exact absurd hascii (by decide)
      rw [isNameStart, isAlphabetic, if_neg hascii, inRuns_of_apart hapart h]
      simpa using hne

@[simp] theorem goesOn_nil (t : Token) : t.goesOn [] = false := by
  unfold Token.goesOn
  split <;> rfl

theorem Lexeme.ne_nil {t : Token} {w : List Char} (h : Lexeme t w) : w ≠ [] := by
  obtain ⟨c, r, -, -, l, -, -, hl, -⟩ := readToken_of_lexeme h (goesOn_nil t)
  rw [← hl]
  exact l.lexeme_ne_nil

theorem Lexeme.head?_any_isBlank {t : Token} {w : List Char} (h : Lexeme t w) :
    w.head?.any isBlank = false := by
  obtain ⟨c, r, heq, hc, -⟩ := readToken_of_lexeme h (goesOn_nil t)
  rw [List.append_nil] at heq
  rw [heq]
  exact hc

theorem lexeme_sym {s : Symbol} {w : List Char} (h : Lexeme (.sym s) w) : w = s.chars := by
  cases h
  rfl

theorem lexeme_ident {name : String} {w : List Char} (h : Lexeme (.ident name) w) :
    name.toList = w := by
  cases h
  exact String.toList_ofList

theorem lexeme_int {n : Int} {w : List Char} (h : Lexeme (.int n) w) :
    w ≠ [] ∧ ∀ d ∈ w, d.isDigit = true := by
  cases h with
  | int hne hd _ => exact ⟨hne, hd⟩

/-- A token that starts with a decimal digit is a number, and its digits are ASCII digits. -/
theorem Lexeme.of_isDecimal {t : Token} {c : Char} {w : List Char} (h : Lexeme t (c :: w))
    (hc : isDecimal c = true) :
    (∃ n, t = .int n ∧ ∀ d ∈ c :: w, d.isDigit = true) ∨
      ∃ whole places, c :: w = whole ++ '.' :: places ∧ whole ≠ [] ∧ places ≠ [] ∧
        (∀ d ∈ whole, d.isDigit = true) ∧ ∀ d ∈ places, d.isDigit = true := by
  generalize hcs : c :: w = cs at h
  cases h with
  | sym s =>
      rcases s with _ | _ | _ | _ | _ | _ | _ | (_ | _ | _ | _ | _ | _) <;>
        obtain rfl := (List.cons.inj hcs).1 <;> exact absurd hc (by decide)
  | int hne hd hn => exact .inl ⟨_, rfl, hd⟩
  | float hw hp hwd hpd => exact .inr ⟨_, _, rfl, hw, hp, hwd, hpd⟩
  | str h =>
      obtain rfl := (List.cons.inj hcs).1
      exact absurd hc (by decide)
  | ident h =>
      subst hcs
      simp only [isName, Bool.and_eq_true] at h
      rw [isNameStart_of_isDecimal hc] at h
      exact absurd h.1 (by decide)

/-- A text with tokens starts with no digit other than the ASCII digits. -/
theorem LexesFrom.isDigit {pos : Nat} {c : Char} {r : List Char} {ps : List Placed}
    (h : LexesFrom pos (c :: r) ps) (hc : isDecimal c = true) : c.isDigit = true := by
  generalize hcs : c :: r = cs at h
  cases h with
  | nil => contradiction
  | blank hb h =>
      obtain rfl := (List.cons.inj hcs).1
      rw [Rule.isBlank_of_isDecimal hc] at hb
      contradiction
  | @token _ t w r' ps hw hgo h =>
      obtain ⟨d, w, rfl⟩ := List.exists_cons_of_ne_nil hw.ne_nil
      obtain rfl := (List.cons.inj hcs).1
      rcases hw.of_isDecimal hc with ⟨n, -, hdigits⟩ | ⟨whole, places, heq, hwhole, -, hdigits, -⟩
      · exact hdigits c (by simp)
      · obtain ⟨e, whole, rfl⟩ := List.exists_cons_of_ne_nil hwhole
        obtain rfl := (List.cons.inj heq).1
        exact hdigits c (by simp)

theorem LexesFrom.head?_any_isDecimal {pos : Nat} {cs : List Char} {ps : List Placed}
    (h : LexesFrom pos cs ps) (hdigit : cs.head?.any Char.isDigit = false) :
    cs.head?.any isDecimal = false := by
  cases cs with
  | nil => rfl
  | cons c r =>
      refine Bool.eq_false_iff.mpr fun hc => ?_
      simp [h.isDigit hc] at hdigit

/-- What a text with tokens looks like up to the end of its first token. -/
theorem LexesFrom.exists_first {pos : Nat} {cs : List Char} {p : Placed} {ps : List Placed}
    (h : LexesFrom pos cs (p :: ps)) : ∃ g w r, cs = g ++ (w ++ r) ∧ (∀ c ∈ g, isBlank c = true) ∧
      p.pos = pos + byteLength g ∧ Lexeme p.token w ∧ p.token.goesOn r = false ∧
      LexesFrom (p.pos + byteLength w) r ps := by
  generalize hps : p :: ps = qs at h
  induction h with
  | nil => contradiction
  | @blank pos c r qs hc _ ih =>
      obtain ⟨g, w, r', rfl, hg, hpos, hw, hgo, hrest⟩ := ih hps
      refine ⟨c :: g, w, r', rfl, ?_, ?_, hw, hgo, hrest⟩
      · simpa [hc] using hg
      · rw [hpos, byteLength_cons, Nat.add_assoc]
  | token hw hgo h =>
      obtain ⟨rfl, rfl⟩ := List.cons.inj hps
      exact ⟨[], _, _, rfl, by simp, rfl, hw, hgo, h⟩

/-- What a text with tokens that does not start with a blank looks like up to the end of its first
token. -/
theorem Lexes.exists_first {cs : List Char} {t : Token} {ts : List Token} (h : Lexes cs (t :: ts))
    (hc : cs.head?.any isBlank = false) :
    ∃ w r, cs = w ++ r ∧ Lexeme t w ∧ t.goesOn r = false ∧ Lexes r ts := by
  obtain ⟨ps, hps, hbare⟩ := lexes_iff.mp h
  cases ps with
  | nil => contradiction
  | cons p ps =>
      obtain ⟨rfl, rfl⟩ := List.cons.inj hbare
      obtain ⟨g, w, r, rfl, hg, -, hw, hgo, hrest⟩ := hps.exists_first
      cases g with
      | nil =>
          obtain ⟨qs, hqs, hbare⟩ := hrest.shift 0
          exact ⟨w, r, rfl, hw, hgo, lexes_iff.mpr ⟨qs, hqs, hbare⟩⟩
      | cons d g => simp [hg d] at hc

/-- The decimal digits in front of a text with tokens are an integer, unless they are part of a
fraction. -/
theorem LexesFrom.exists_int {pos : Nat} {digits rest : List Char} {ps : List Placed}
    (hne : digits ≠ []) (hd : ∀ c ∈ digits, isDecimal c = true)
    (hrest : rest.head?.any isDecimal = false) (hfraction : startsFraction rest = false)
    (h : LexesFrom pos (digits ++ rest) ps) :
    ∃ n qs, Lexeme (.int n) digits ∧ ps = ⟨.int n, pos⟩ :: qs ∧
      LexesFrom (pos + byteLength digits) rest qs := by
  obtain ⟨c, ds, rfl⟩ := List.exists_cons_of_ne_nil hne
  have hc : isDecimal c = true := hd c (by simp)
  have hwhole := takeWhile_append_of_stop hd hrest
  have hleft := dropWhile_append_of_stop hd hrest
  generalize hcs : c :: ds ++ rest = cs at h hwhole hleft
  cases h with
  | nil => contradiction
  | blank hb _ =>
      obtain rfl := (List.cons.inj hcs).1
      rw [Rule.isBlank_of_isDecimal hc] at hb
      contradiction
  | @token _ t w r qs hw hgo h =>
      obtain ⟨d, w, rfl⟩ := List.exists_cons_of_ne_nil hw.ne_nil
      obtain rfl : c = d := (List.cons.inj hcs).1
      rcases hw.of_isDecimal hc with ⟨n, rfl, hdigits⟩ | ⟨whole, places, heq, -, hplaces, hwd, hpd⟩
      · have hdecimals : ∀ d ∈ c :: w, isDecimal d = true :=
          fun d hd => isDecimal_of_isDigit (hdigits d hd)
        have hr : r.head?.any isDecimal = false := by
          simp only [Token.goesOn, Bool.or_eq_false_iff] at hgo
          exact h.head?_any_isDecimal hgo.1
        rw [takeWhile_append_of_stop hdecimals hr] at hwhole
        rw [dropWhile_append_of_stop hdecimals hr] at hleft
        rw [← hwhole, ← hleft]
        exact ⟨n, qs, hw, rfl, h⟩
      · -- the digits would be the integral part of a fraction
        rw [heq, List.append_assoc, dropWhile_append_of_stop
          (fun d hd => isDecimal_of_isDigit (hwd d hd)) (by rfl)] at hleft
        obtain ⟨e, places, rfl⟩ := List.exists_cons_of_ne_nil hplaces
        rw [← hleft] at hfraction
        simp [startsFraction, hpd e] at hfraction

end ShopLens.Filter

namespace ShopLens.Rule

open ShopLens.Text ShopLens.Filter

/-! ## the tokens of a comparison -/

/-- The operator of the comparison of open affixes that some tokens start with. -/
def runOperator? : List Placed → Option Comparison
  | ⟨.ident name, _⟩ :: ⟨.sym .lparen, p⟩ :: ⟨.sym .rparen, q⟩ :: ⟨.sym (.cmp op), _⟩ ::
      ⟨.int _, _⟩ :: _ =>
    if (name.toList = countName .prefixMod ∨ name.toList = countName .suffixMod) ∧ q = p + 1 ∧
        op ≠ .ne then some op
    else none
  | _ => none

theorem byteLength_pos {cs : List Char} (h : cs ≠ []) : 0 < byteLength cs := by
  obtain ⟨c, r, rfl⟩ := List.exists_cons_of_ne_nil h
  rw [byteLength_cons]
  exact Nat.add_pos_left c.utf8Size_pos _

theorem isName_countName (k : AffixKind) : isName (countName k) = true := by
  cases k <;> decide +kernel

/-- The name of a count is a whole token where a blank or an opening parenthesis comes next. -/
theorem goesOn_name {k : AffixKind} {d : Char} (hd : (isBlank d || d == '(') = true) (r : List Char) :
    (Token.ident (String.ofList (countName k))).goesOn (d :: r) = false := by
  have hall : ∀ d ∈ '(' :: blanks, isNamePart d = false :=
    List.all_iff_forall_prop.mp (by decide +kernel)
  exact hall d (by simpa [isBlank_iff, or_comm] using hd)

/-- Behind a comparison that is found the tokens of the text go on. -/
theorem exists_run {k : AffixKind} {m rest : List Char} {b : Bound} (hm : Writes k m b) {pos : Nat}
    {ps : List Placed} (hrest : rest.head?.any isDecimal = false)
    (hfraction : startsFraction rest = false) (h : LexesFrom pos (m ++ rest) ps) :
    ∃ run qs, ps = run ++ qs ∧ run.length = 5 ∧ runOperator? ps = some b.op ∧
      (∀ p ∈ run, p.pos < pos + byteLength m) ∧ LexesFrom (pos + byteLength m) rest qs := by
  obtain ⟨op, hop, h₁, h₂, h₃, hne, hd⟩ := hm
  rename_i g₁ g₂ g₃ digits
  have hname : (Token.ident (String.ofList (countName k))).goesOn
      (g₁ ++ (['(', ')'] ++ (g₂ ++ ((Symbol.cmp op).chars ++ (g₃ ++ (digits ++ rest)))))) = false := by
    cases g₁ with
    | nil => exact goesOn_name (by decide) _
    | cons d g₁ => exact goesOn_name (by simp [h₁ d]) _
  simp only [List.append_assoc] at h
  obtain ⟨ps₁, rfl, hopen⟩ := h.of_token (.ident (isName_countName k)) hname
  obtain ⟨ps₂, rfl, hclose⟩ := (hopen.of_blanks_append h₁).of_token (w := ['(']) (.sym .lparen) rfl
  obtain ⟨ps₃, rfl, hcmp⟩ := hclose.of_token (w := [')']) (.sym .rparen) rfl
  obtain ⟨ps₄, rfl, hint⟩ :=
    (hcmp.of_blanks_append h₂).of_token (.sym (.cmp op)) (goesOn_cmp h₃ hne hd)
  obtain ⟨n, qs, -, rfl, hqs⟩ := (hint.of_blanks_append h₃).exists_int hne hd hrest hfraction
  have hlength := byteLength_pos (Lexeme.ident (isName_countName k)).ne_nil
  have hdigits := byteLength_pos hne
  refine ⟨[_, _, _, _, _], qs, rfl, rfl, ?_, ?_, ?_⟩
  · have hk : (String.ofList (countName k)).toList = countName .prefixMod ∨
        (String.ofList (countName k)).toList = countName .suffixMod := by
      rw [String.toList_ofList]
      cases k
      · exact .inl rfl
      · exact .inr rfl
    exact if_pos ⟨hk, rfl, hop⟩
  · simp only [List.forall_mem_cons, byteLength_append, byteLength_cons]
    refine ⟨?_, ?_, ?_, ?_, ?_, by simp⟩ <;> simp <;> omega
  · simpa [Nat.add_assoc] using hqs

/-- Where the tokens of a comparison stand a comparison is found, and no fraction goes on with it. -/
theorem exists_found_of_runOperator {pos : Nat} {cs : List Char} {ps : List Placed} {op : Comparison}
    (h : LexesFrom pos cs ps) (hop : runOperator? ps = some op) :
    ∃ g v k f, cs = g ++ v ∧ (∀ c ∈ g, isBlank c = true) ∧ found? k v = some f ∧
      startsFraction f.rest = false := by
  unfold runOperator? at hop
  split at hop
  · next name p₀ p q op' p₃ n p₄ qs =>
      split at hop
      · next hrun =>
          obtain ⟨hname, rfl, hne⟩ := hrun
          obtain ⟨g₀, w₀, r₀, rfl, hg₀, hp₀, hw₀, -, h₀⟩ := h.exists_first
          obtain ⟨g₁, w₁, r₁, rfl, hg₁, hp₁, hw₁, -, h₁⟩ := h₀.exists_first
          obtain ⟨g, w₂, r₂, rfl, -, hp₂, hw₂, -, h₂⟩ := h₁.exists_first
          obtain ⟨g₂, w₃, r₃, rfl, hg₂, hp₃, hw₃, -, h₃⟩ := h₂.exists_first
          obtain ⟨g₃, w₄, r₄, rfl, hg₃, hp₄, hw₄, hgo, h₄⟩ := h₃.exists_first
          obtain rfl := lexeme_sym hw₁
          obtain rfl := lexeme_sym hw₂
          obtain rfl := lexeme_sym hw₃
          obtain ⟨k, rfl⟩ : ∃ k, w₀ = countName k := by
            rw [lexeme_ident hw₀] at hname
            exact hname.elim (fun hk => ⟨_, hk⟩) fun hk => ⟨_, hk⟩
          -- the parentheses have nothing between them
          obtain rfl : g = [] := by
            dsimp only at hp₂
            rw [Symbol.chars, byteLength_cons, byteLength_nil] at hp₂
            have hparen : '('.utf8Size = 1 := by decide
            by_contra hg
            have := byteLength_pos hg
            omega
          obtain ⟨hdne, hdigits⟩ := lexeme_int hw₄
          simp only [Token.goesOn, Bool.or_eq_false_iff] at hgo
          have hrest : r₄.head?.any isDecimal = false := h₄.head?_any_isDecimal hgo.1
          have hm := Writes.mk (k := k) op' hne hg₁ hg₂ hg₃ hdne
            fun d hd => isDecimal_of_isDigit (hdigits d hd)
          obtain ⟨f, hf, -, hleft⟩ := found?_of_writes hm hrest
          refine ⟨g₀, _, k, f, ?_, hg₀, hf, by rw [hleft]; exact hgo.2⟩
          simp [Symbol.chars]
      · contradiction
  · contradiction

end ShopLens.Rule
